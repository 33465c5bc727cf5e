import PetaCore.Core.RequestRouting
import PetaCore.ForStd.Segments
import PetaCore.Spec.RequestIdMapper

/-!
# Cancellations and progress over whole runs

Every entry of a session's mapper is the entry of one request that is not complete, with the
request's own id and progress token, as long as no other such request has its proxy id. Then a
progress notification finds the request whose proxy id is its token. A cancellation finds its
request too, and the id that the request has downstream, but it is sent on the connection that
the server context has by then.

## Key results

- `cancellation_names_request_iff`: a forwarded cancellation names the request that it cancels
  exactly when the context still has the connection that the request was sent on
- `cancellation_names_other_request`: a cancellation that reaches the request of another session
- `progress_reaches_owner`: progress is delivered for registered requests with a token only, with
  their own token and id
-/

namespace PetaCore

open Run

/-! ## Proxy ids -/

theorem extractSessionId_append (sessionId : SessionId) (rest : String) :
    extractSessionIdFromProxyRequestId (sessionId.value ++ ":" ++ rest) = some sessionId.value := by
  have hlist : (sessionId.value ++ ":" ++ rest).toList =
      sessionId.value.toList ++ ':' :: rest.toList := by
    simp [String.toList_append]
  have hidx : (sessionId.value.toList ++ ':' :: rest.toList).idxOf? ':' =
      some sessionId.value.toList.length := by
    rw [List.idxOf?_eq_some_iff]
    refine ⟨by simp, by simp, ?_⟩
    intro j hj heq
    rw [List.getElem_append_left hj] at heq
    exact sessionId.noColon (heq ▸ List.getElem_mem hj)
  have hpos : 0 < sessionId.value.toList.length := by
    apply List.length_pos_of_ne_nil
    intro hnil
    exact sessionId.nonempty (String.toList_eq_nil_iff.mp hnil)
  unfold extractSessionIdFromProxyRequestId
  simp [hlist, hidx, hpos]

namespace RequestIdMapper

variable {m : RequestIdMapper}

theorem extractSessionId_generateProxyRequestId {sessionId : SessionId}
    (hm : m.sessionId = sessionId.value) (id : RequestId) (t : Timestamp) :
    extractSessionIdFromProxyRequestId (m.generateProxyRequestId id t) = some sessionId.value := by
  unfold generateProxyRequestId
  rw [hm]
  have happend : sessionId.value ++ ":" ++ id.text ++ ":" ++ toString t =
      sessionId.value ++ ":" ++ (id.text ++ ":" ++ toString t) := by
    simp [String.append_assoc]
  rw [happend]
  exact extractSessionId_append sessionId _

/-- The proxy id gives the text of the request's id away. -/
theorem text_of_generateProxyRequestId {id id' : RequestId} {t t' : Timestamp}
    (h : m.generateProxyRequestId id t = m.generateProxyRequestId id' t') : id.text = id'.text := by
  have htexts : ∀ (id : RequestId) (t : Timestamp), (m.generateProxyRequestId id t).toList =
      (m.sessionId ++ ":" ++ id.text).toList ++ ':' :: (toString t).toList := by
    intro id t
    simp [generateProxyRequestId, String.toList_append]
  -- a time has no colon, so the last colon is the one before it
  have hcolon : ∀ t : Timestamp, ':' ∉ (toString t).toList :=
    Int.notMem_toString (by decide) (by decide)
  have hlist := congrArg String.toList h
  rw [htexts, htexts] at hlist
  obtain ⟨hids, _⟩ := Segments.append_sep_inj_right (hcolon t) (hcolon t') hlist
  simp only [String.toList_append] at hids
  exact String.toList_inj.mp (List.append_cancel_left hids)

/-! ## Entries -/

/-- No entry is new, and the entries are still of the same requests. -/
def Keeps (m m' : RequestIdMapper) : Prop :=
  ∀ p e', m'.proxyToDownstream.get? p = some e' →
    ∃ e, m.proxyToDownstream.get? p = some e ∧ e'.originalRequestId = e.originalRequestId ∧
      e'.originalProgressToken = e.originalProgressToken

theorem Keeps.refl (m : RequestIdMapper) : m.Keeps m :=
  fun _ e h => ⟨e, h, rfl, rfl⟩

/-- Removing a mapping leaves the other entries as they are. -/
theorem get?_removeMapping {p p' : String} {e : MappingEntry}
    (h : (m.removeMapping p).proxyToDownstream.get? p' = some e) :
    p' ≠ p ∧ m.proxyToDownstream.get? p' = some e := by
  unfold removeMapping at h
  cases hp : m.proxyToDownstream.get? p with
  | none =>
    simp only [hp] at h
    refine ⟨?_, h⟩
    intro heq
    rw [heq, hp] at h
    cases h
  | some e' =>
    simp only [hp, Dict.get?_erase] at h
    split at h
    · cases h
    · rename_i hne
      exact ⟨hne, h⟩

theorem get?_cleanupExpired {now : Timestamp} {p : String} {e : MappingEntry}
    (h : (m.cleanupExpired now).proxyToDownstream.get? p = some e) :
    m.proxyToDownstream.get? p = some e :=
  cleanupExpired_induct
    (P := fun m' => m'.proxyToDownstream.get? p = some e → m.proxyToDownstream.get? p = some e)
    (fun _ _ hm hget => hm (get?_removeMapping hget).2) (fun hget => hget) now h

/-- Only the entry of the request changes, and only in what it has downstream. -/
theorem get?_registerDownstream {p p' : String} {d : RequestId} {s : String}
    {client : Option ClientRef} {e : MappingEntry}
    (h : (m.registerDownstreamMapping p d s client).proxyToDownstream.get? p' = some e) :
    (p' ≠ p ∧ m.proxyToDownstream.get? p' = some e) ∨
      p' = p ∧ ∃ e₀, m.proxyToDownstream.get? p = some e₀ ∧
        e = { e₀ with downstreamRequestId := some d, serverId := some s, client := client } := by
  unfold registerDownstreamMapping at h
  cases hp : m.proxyToDownstream.get? p with
  | none =>
    simp only [hp] at h
    refine .inl ⟨?_, h⟩
    intro heq
    rw [heq, hp] at h
    cases h
  | some e₀ =>
    simp only [hp, Dict.get?_set] at h
    split at h
    · rename_i heq
      exact .inr ⟨heq, e₀, rfl, (Option.some.inj h).symm⟩
    · rename_i hne
      exact .inl ⟨hne, h⟩

theorem keeps_removeMapping (p : String) : m.Keeps (m.removeMapping p) :=
  fun _ e h => ⟨e, (get?_removeMapping h).2, rfl, rfl⟩

theorem keeps_cleanupExpired (now : Timestamp) : m.Keeps (m.cleanupExpired now) :=
  fun _ e h => ⟨e, get?_cleanupExpired h, rfl, rfl⟩

theorem keeps_registerDownstream (p : String) (d : RequestId) (s : String)
    (client : Option ClientRef) : m.Keeps (m.registerDownstreamMapping p d s client) := by
  intro p' e' h
  cases get?_registerDownstream h with
  | inl h => exact ⟨e', h.2, rfl, rfl⟩
  | inr h =>
    obtain ⟨rfl, e₀, he₀, rfl⟩ := h
    exact ⟨e₀, he₀, rfl, rfl⟩

theorem keeps_init (sessionId : String) : m.Keeps (.init sessionId) := by
  intro p e h
  simp [init] at h

@[simp] theorem sessionId_removeMapping (p : String) :
    (m.removeMapping p).sessionId = m.sessionId := by
  unfold removeMapping
  split
  · rfl
  · rfl

@[simp] theorem sessionId_registerDownstreamMapping (p : String) (d : RequestId) (s : String)
    (client : Option ClientRef) :
    (m.registerDownstreamMapping p d s client).sessionId = m.sessionId := by
  unfold registerDownstreamMapping
  split
  · rfl
  · rfl

@[simp] theorem sessionId_setOriginalProgressToken (p : String) (token : RequestId) :
    (m.setOriginalProgressToken p token).sessionId = m.sessionId := by
  unfold setOriginalProgressToken
  split
  · rfl
  · rfl

@[simp] theorem sessionId_registerClientRequest (id : RequestId) (method serverId : Option String)
    (idTime entryTime : Timestamp) :
    (m.registerClientRequest id method serverId idTime entryTime).2.sessionId = m.sessionId := by
  unfold registerClientRequest
  split
  · rfl
  · rfl

theorem sessionId_cleanupExpired (now : Timestamp) :
    (m.cleanupExpired now).sessionId = m.sessionId :=
  cleanupExpired_induct (P := fun m' => m'.sessionId = m.sessionId)
    (fun _ p h => (sessionId_removeMapping p).trans h) rfl now

/-- A request is registered already, or it gets a new entry. -/
theorem EntriesOk.registerClientRequest_cases (h : m.EntriesOk) (id : RequestId)
    (method serverId : Option String) (idTime entryTime : Timestamp) :
    (∃ p, m.clientToProxy id = some p ∧
      m.registerClientRequest id method serverId idTime entryTime = (p, m)) ∨
    (m.clientToProxy id = none ∧ ∃ e m', e.originalRequestId = id ∧
      e.originalProgressToken = none ∧ e.downstreamRequestId = none ∧
      m'.proxyToDownstream =
        m.proxyToDownstream.set (m.generateProxyRequestId id idTime) e ∧
      (m.proxyToDownstream.get? (m.generateProxyRequestId id idTime) = none → m'.EntriesOk) ∧
      m.registerClientRequest id method serverId idTime entryTime =
        (m.generateProxyRequestId id idTime, m')) := by
  unfold registerClientRequest
  rw [h.registered?_eq]
  cases hid : m.clientToProxy id with
  | some p => exact .inl ⟨p, rfl, rfl⟩
  | none =>
    refine .inr ⟨rfl, _, _, rfl, rfl, rfl, rfl, ?_, rfl⟩
    intro hp
    exact h.registerNew hid hp (generateProxyRequestId_ne_empty id idTime) rfl

/-- The entries when the client's progress token has been stored. -/
theorem get?_rewriteProgressToken (token : Option RequestId) (p p' : String) :
    (rewriteProgressTokenForDownstream m token p).proxyToDownstream.get? p' =
      if p' = p then (m.proxyToDownstream.get? p).map fun e =>
        { e with originalProgressToken := token.or e.originalProgressToken }
      else m.proxyToDownstream.get? p' := by
  unfold rewriteProgressTokenForDownstream
  cases token with
  | none =>
    by_cases hp : p' = p
    · simp [hp]
    · simp [hp]
  | some t =>
    unfold setOriginalProgressToken
    cases he : m.proxyToDownstream.get? p with
    | none =>
      by_cases hp : p' = p
      · simp [hp, he]
      · simp [hp]
    | some e =>
      by_cases hp : p' = p
      · simp [hp]
      · simp [hp, Dict.get?_set_ne]

theorem EntriesOk.rewriteProgressToken (h : m.EntriesOk) (token : Option RequestId) (p : String) :
    (rewriteProgressTokenForDownstream m token p).EntriesOk := by
  cases token with
  | none => exact h
  | some t => exact h.setToken p t

theorem sessionId_rewriteProgressToken (token : Option RequestId) (p : String) :
    (rewriteProgressTokenForDownstream m token p).sessionId = m.sessionId := by
  cases token with
  | none => rfl
  | some t => exact sessionId_setOriginalProgressToken p t

end RequestIdMapper

/-! ## States -/

/-- The entry of a request that is not complete. -/
structure RoutedRequest.Holds (req : RoutedRequest) (ref : ProxySessionRef) (p : String)
    (e : MappingEntry) : Prop where
  session : req.session = ref
  pending : req.completed = false
  proxyRequestId : req.proxyRequestId = p
  originalRequestId : e.originalRequestId = req.originalRequestId
  progressToken : e.originalProgressToken = req.progressToken

namespace RoutingState

/-- What holds in every state as long as no two requests get the same proxy id. -/
structure Ok (st : RoutingState) : Prop where
  stored : ∀ sessionId ref, st.proxySessions.get? sessionId = some ref →
    ∃ s, st.sessions ref = some s ∧ s.sessionId.value = sessionId
  mapped : ∀ ref s, st.sessions ref = some s → s.requestIdMapper.EntriesOk
  named : ∀ ref s, st.sessions ref = some s → s.requestIdMapper.sessionId = s.sessionId.value
  owned : ∀ ref s p e, st.sessions ref = some s →
    s.requestIdMapper.proxyToDownstream.get? p = some e →
      ∃ r req, st.requests r = some req ∧ req.Holds ref p e
  generated : ∀ r req, st.requests r = some req → ∃ s t, st.sessions req.session = some s ∧
    req.proxyRequestId = s.requestIdMapper.generateProxyRequestId req.originalRequestId t
  apart : ∀ r r' req req', st.requests r = some req → st.requests r' = some req' →
    req.session = req'.session → req.completed = false → req'.completed = false →
      req.proxyRequestId = req'.proxyRequestId → r = r'

variable {st st' : RoutingState}

theorem Ok.init : RoutingState.init.Ok := by
  constructor
  all_goals simp [RoutingState.init]

/-- Connections and clients play no part in it. -/
theorem Ok.congr (h : st.Ok) (hstore : st'.proxySessions = st.proxySessions)
    (hsessions : st'.sessions = st.sessions) (hrequests : st'.requests = st.requests) :
    st'.Ok := by
  refine ⟨?_, ?_, ?_, ?_, ?_, ?_⟩
  · rw [hstore, hsessions]
    exact h.stored
  · rw [hsessions]
    exact h.mapped
  · rw [hsessions]
    exact h.named
  · rw [hsessions, hrequests]
    exact h.owned
  · rw [hsessions, hrequests]
    exact h.generated
  · rw [hrequests]
    exact h.apart

variable {f : RequestIdMapper → RequestIdMapper}

variable {ref : ProxySessionRef}

theorem sessions_updateMapper_some {ref' : ProxySessionRef}
    {s' : RoutedSession} (h : (st.updateMapper ref f).sessions ref' = some s') :
    ∃ s, st.sessions ref' = some s ∧
      s' = { s with requestIdMapper := if ref' = ref then f s.requestIdMapper
        else s.requestIdMapper } := by
  simp only [updateMapper, Function.update_apply] at h
  by_cases href : ref' = ref
  · rw [if_pos href] at h
    obtain ⟨s, hs, rfl⟩ := Option.map_eq_some_iff.mp h
    exact ⟨s, href ▸ hs, by simp [href]⟩
  · rw [if_neg href] at h
    exact ⟨s', h, by simp [href]⟩

variable {s : RoutedSession}

theorem sessions_updateMapper {ref' : ProxySessionRef} (h : st.sessions ref' = some s) :
    (st.updateMapper ref f).sessions ref' = some { s with
      requestIdMapper := if ref' = ref then f s.requestIdMapper else s.requestIdMapper } := by
  simp only [updateMapper, Function.update_apply]
  by_cases href : ref' = ref
  · simp [href, href ▸ h]
  · simp [href, h]

/-- What an operation on a mapper has to keep. -/
structure MapperKept (m m' : RequestIdMapper) : Prop where
  entriesOk : m'.EntriesOk
  sessionId : m'.sessionId = m.sessionId
  keeps : m.Keeps m'

theorem Ok.updateMapper (h : st.Ok)
    (hf : ∀ s, st.sessions ref = some s → MapperKept s.requestIdMapper (f s.requestIdMapper)) :
    (st.updateMapper ref f).Ok := by
  have hkept : ∀ ref' s, st.sessions ref' = some s → MapperKept s.requestIdMapper
      (if ref' = ref then f s.requestIdMapper else s.requestIdMapper) := by
    intro ref' s hs
    split
    · rename_i href
      exact hf s (href ▸ hs)
    · exact ⟨h.mapped ref' s hs, rfl, .refl _⟩
  refine ⟨?_, ?_, ?_, ?_, ?_, h.apart⟩
  · intro sessionId ref' href'
    obtain ⟨s, hs, hid⟩ := h.stored sessionId ref' href'
    exact ⟨_, sessions_updateMapper hs, hid⟩
  · intro ref' s' hs'
    obtain ⟨s, hs, rfl⟩ := sessions_updateMapper_some hs'
    exact (hkept ref' s hs).entriesOk
  · intro ref' s' hs'
    obtain ⟨s, hs, rfl⟩ := sessions_updateMapper_some hs'
    exact (hkept ref' s hs).sessionId.trans (h.named ref' s hs)
  · intro ref' s' p e' hs' he'
    obtain ⟨s, hs, rfl⟩ := sessions_updateMapper_some hs'
    obtain ⟨e, he, horiginal, htoken⟩ := (hkept ref' s hs).keeps p e' he'
    obtain ⟨r, req, hreq, hholds⟩ := h.owned ref' s p e hs he
    exact ⟨r, req, hreq, hholds.session, hholds.pending, hholds.proxyRequestId,
      horiginal.trans hholds.originalRequestId, htoken.trans hholds.progressToken⟩
  · intro r req hreq
    obtain ⟨s, t, hs, hp⟩ := h.generated r req hreq
    refine ⟨_, t, sessions_updateMapper hs, ?_⟩
    rw [hp]
    simp only [RequestIdMapper.generateProxyRequestId]
    rw [(hkept _ s hs).sessionId]

/-! ### Registration -/

/-- The proxy id that a request gets. -/
def registeredId (session : RoutedSession) (req : RoutedRequest) (method serverId : Option String)
    (idTime entryTime : Timestamp) : String :=
  (session.requestIdMapper.registerClientRequest req.originalRequestId method serverId idTime
    entryTime).1

/-- The mapper with the request and its progress token. -/
def registeredMapper (session : RoutedSession) (req : RoutedRequest)
    (method serverId : Option String) (idTime entryTime : Timestamp) : RequestIdMapper :=
  rewriteProgressTokenForDownstream
    (session.requestIdMapper.registerClientRequest req.originalRequestId method serverId idTime
      entryTime).2 req.progressToken
    (registeredId session req method serverId idTime entryTime)

section Registration

variable {r : Nat} {req : RoutedRequest} {s : RoutedSession} {method serverId : Option String}
  {idTime entryTime : Timestamp}

/-- No other request that is not complete has the proxy id. -/
def IdFree (st : RoutingState) (r : Nat) (ref : ProxySessionRef) (p : String) : Prop :=
  ∀ r' req', st.requests r' = some req' → r' ≠ r → req'.session = ref →
    req'.completed = false → req'.proxyRequestId ≠ p

/-- The entry under a free proxy id is the request's own. -/
theorem Ok.holds_of_idFree (h : st.Ok) {ref : ProxySessionRef} (hs : st.sessions ref = some s)
    {p : String} (hfree : st.IdFree r ref p) {e : MappingEntry}
    (he : s.requestIdMapper.proxyToDownstream.get? p = some e) :
    ∃ req, st.requests r = some req ∧ req.Holds ref p e := by
  obtain ⟨r', req', hreq', hholds⟩ := h.owned ref s p e hs he
  by_cases hr : r' = r
  · exact ⟨req', hr ▸ hreq', hholds⟩
  · exact absurd hholds.proxyRequestId (hfree r' req' hreq' hr hholds.session hholds.pending)

/-- A registration leaves the entries of the others as they are. -/
theorem Ok.registered_entries (h : st.Ok) (hs : st.sessions req.session = some s)
    (hreq : ∀ req', st.requests r = some req' → req' = req)
    (hfree : st.IdFree r req.session (registeredId s req method serverId idTime entryTime)) :
    (registeredMapper s req method serverId idTime entryTime).EntriesOk ∧
    ∀ p e, (registeredMapper s req method serverId idTime entryTime).proxyToDownstream.get? p =
        some e →
      (p = registeredId s req method serverId idTime entryTime ∧
        e.originalRequestId = req.originalRequestId ∧
        e.originalProgressToken = req.progressToken ∧
        (e.downstreamRequestId = none ∨ ∃ e₀, s.requestIdMapper.proxyToDownstream.get? p = some e₀ ∧
          e.downstreamRequestId = e₀.downstreamRequestId ∧ e.client = e₀.client)) ∨
      (s.requestIdMapper.proxyToDownstream.get? p = some e ∧
        e.originalRequestId ≠ req.originalRequestId) := by
  have hmapped := h.mapped _ s hs
  unfold registeredMapper
  unfold registeredId at hfree ⊢
  have hother : ∀ {p p' : String} {e : MappingEntry},
      s.requestIdMapper.clientToProxy req.originalRequestId = some p ∨
        s.requestIdMapper.clientToProxy req.originalRequestId = none →
      p' ≠ p → s.requestIdMapper.proxyToDownstream.get? p' = some e →
      e.originalRequestId ≠ req.originalRequestId := by
    intro p p' e hid hne he heq
    have hclient := hmapped.clientToProxy_of_entry he
    rw [heq] at hclient
    cases hid with
    | inl hid =>
      rw [hid] at hclient
      exact hne (Option.some.inj hclient).symm
    | inr hid =>
      rw [hid] at hclient
      cases hclient
  cases hmapped.registerClientRequest_cases req.originalRequestId method serverId idTime
    entryTime with
  | inl hcase =>
    obtain ⟨p, hid, hregister⟩ := hcase
    rw [hregister] at hfree ⊢
    refine ⟨hmapped.rewriteProgressToken _ _, ?_⟩
    intro p' e he
    rw [RequestIdMapper.get?_rewriteProgressToken] at he
    by_cases hp : p' = p
    · rw [if_pos hp] at he
      obtain ⟨e₀, he₀, rfl⟩ := Option.map_eq_some_iff.mp he
      -- registered under this id was the request itself
      obtain ⟨req', hreq', hholds⟩ := h.holds_of_idFree hs hfree he₀
      obtain rfl := hreq req' hreq'
      refine .inl ⟨hp, hholds.originalRequestId, ?_, .inr ⟨e₀, hp ▸ he₀, rfl, rfl⟩⟩
      simp [hholds.progressToken]
    · rw [if_neg hp] at he
      exact .inr ⟨he, hother (.inl hid) hp he⟩
  | inr hcase =>
    obtain ⟨hid, e₀, m', horiginal, htoken, hdown, hentries, hok, hregister⟩ := hcase
    rw [hregister] at hfree ⊢
    have hnew : s.requestIdMapper.proxyToDownstream.get?
        (s.requestIdMapper.generateProxyRequestId req.originalRequestId idTime) = none := by
      rw [Option.eq_none_iff_forall_ne_some]
      intro e he
      obtain ⟨req', hreq', hholds⟩ := h.holds_of_idFree hs hfree he
      obtain rfl := hreq req' hreq'
      have hclient := hmapped.clientToProxy_of_entry he
      rw [hholds.originalRequestId, hid] at hclient
      cases hclient
    refine ⟨(hok hnew).rewriteProgressToken _ _, ?_⟩
    intro p' e he
    rw [RequestIdMapper.get?_rewriteProgressToken, hentries] at he
    by_cases hp : p' = s.requestIdMapper.generateProxyRequestId req.originalRequestId idTime
    · rw [if_pos hp, Dict.get?_set_self] at he
      cases he
      exact .inl ⟨hp, horiginal, by simp [htoken], .inl hdown⟩
    · rw [if_neg hp, Dict.get?_set_ne _ _ hp] at he
      exact .inr ⟨he, hother (.inr hid) hp he⟩

theorem sessions_registerRequest {ref : ProxySessionRef} {s' : RoutedSession}
    (h : (st.registerRequest r req s method serverId idTime entryTime).sessions ref = some s') :
    (ref = req.session ∧ s' = { s with
      requestIdMapper := registeredMapper s req method serverId idTime entryTime }) ∨
    (ref ≠ req.session ∧ st.sessions ref = some s') := by
  simp only [registerRequest, Function.update_apply] at h
  split at h
  · rename_i href
    exact .inl ⟨href, (Option.some.inj h).symm⟩
  · rename_i href
    exact .inr ⟨href, h⟩

theorem requests_registerRequest {r' : Nat} {req' : RoutedRequest}
    (h : (st.registerRequest r req s method serverId idTime entryTime).requests r' = some req') :
    (r' = r ∧ req' = { req with
      proxyRequestId := registeredId s req method serverId idTime entryTime }) ∨
    (r' ≠ r ∧ st.requests r' = some req') := by
  simp only [registerRequest, Function.update_apply] at h
  split at h
  · rename_i hr
    exact .inl ⟨hr, (Option.some.inj h).symm⟩
  · rename_i hr
    exact .inr ⟨hr, h⟩

theorem sessionId_registeredMapper :
    (registeredMapper s req method serverId idTime entryTime).sessionId =
      s.requestIdMapper.sessionId := by
  unfold registeredMapper
  rw [RequestIdMapper.sessionId_rewriteProgressToken,
    RequestIdMapper.sessionId_registerClientRequest]

/-- The proxy id has the session's id, the request's id and a time in it. -/
theorem Ok.registeredId_generated (h : st.Ok) (hs : st.sessions req.session = some s)
    (hreq : ∀ req', st.requests r = some req' → req' = req)
    (hfree : st.IdFree r req.session (registeredId s req method serverId idTime entryTime)) :
    ∃ t, registeredId s req method serverId idTime entryTime =
      s.requestIdMapper.generateProxyRequestId req.originalRequestId t := by
  have hmapped := h.mapped _ s hs
  unfold registeredId at hfree ⊢
  cases hmapped.registerClientRequest_cases req.originalRequestId method serverId idTime
    entryTime with
  | inl hcase =>
    obtain ⟨p, hid, hregister⟩ := hcase
    rw [hregister] at hfree ⊢
    obtain ⟨e, he, _⟩ := hmapped.entry_of_clientToProxy hid
    obtain ⟨req', hreq', hholds⟩ := h.holds_of_idFree hs hfree he
    obtain rfl := hreq req' hreq'
    obtain ⟨s', t, hs', hp⟩ := h.generated r req' hreq'
    obtain rfl := Option.some.inj (hs.symm.trans hs')
    exact ⟨t, hholds.proxyRequestId ▸ hp⟩
  | inr hcase =>
    obtain ⟨hid, e, m', _, _, _, _, _, hregister⟩ := hcase
    rw [hregister]
    exact ⟨idTime, rfl⟩

theorem registerRequest_self :
    (st.registerRequest r req s method serverId idTime entryTime).requests r =
      some { req with
        proxyRequestId := registeredId s req method serverId idTime entryTime } := by
  simp [RoutingState.registerRequest, registeredId]

theorem Ok.registerRequest (h : st.Ok) (hs : st.sessions req.session = some s)
    (hreq : ∀ req', st.requests r = some req' → req' = req) (hpending : req.completed = false)
    (hfree : st.IdFree r req.session (registeredId s req method serverId idTime entryTime)) :
    (st.registerRequest r req s method serverId idTime entryTime).Ok := by
  obtain ⟨hok, hentries⟩ := h.registered_entries hs hreq hfree
  have hothers : ∀ r' req', r' ≠ r → st.requests r' = some req' →
      (st.registerRequest r req s method serverId idTime entryTime).requests r' = some req' := by
    intro r' req' hr hreq'
    simp [RoutingState.registerRequest, hr, hreq']
  have hsession : (st.registerRequest r req s method serverId idTime entryTime).sessions
      req.session = some { s with
        requestIdMapper := registeredMapper s req method serverId idTime entryTime } := by
    simp [RoutingState.registerRequest, registeredMapper, registeredId]
  have hsessions : ∀ ref, ref ≠ req.session →
      (st.registerRequest r req s method serverId idTime entryTime).sessions ref =
        st.sessions ref := by
    intro ref href
    simp [RoutingState.registerRequest, href]
  refine ⟨?_, ?_, ?_, ?_, ?_, ?_⟩
  · intro sessionId ref href
    obtain ⟨s₀, hs₀, hid⟩ := h.stored sessionId ref href
    by_cases heq : ref = req.session
    · rw [heq, hs] at hs₀
      cases hs₀
      rw [heq]
      exact ⟨_, hsession, hid⟩
    · exact ⟨s₀, (hsessions ref heq).trans hs₀, hid⟩
  · intro ref s' hs'
    cases sessions_registerRequest hs' with
    | inl hcase =>
      rw [hcase.2]
      exact hok
    | inr hcase => exact h.mapped ref s' hcase.2
  · intro ref s' hs'
    cases sessions_registerRequest hs' with
    | inl hcase =>
      rw [hcase.2]
      exact sessionId_registeredMapper.trans (h.named _ s hs)
    | inr hcase => exact h.named ref s' hcase.2
  · intro ref s' p e hs' he
    cases sessions_registerRequest hs' with
    | inl hcase =>
      rw [hcase.2] at he
      cases hentries p e he with
      | inl hown =>
        obtain ⟨hp, horiginal, htoken, _⟩ := hown
        exact ⟨r, _, registerRequest_self, hcase.1.symm, hpending, hp.symm, horiginal, htoken⟩
      | inr hold =>
        obtain ⟨r', req', hreq', hholds⟩ := h.owned _ s p e hs hold.1
        have hr : r' ≠ r := by
          intro hr
          obtain rfl := hreq req' (hr ▸ hreq')
          exact hold.2 hholds.originalRequestId
        exact ⟨r', req', hothers r' req' hr hreq', hcase.1 ▸ hholds⟩
    | inr hcase =>
      obtain ⟨r', req', hreq', hholds⟩ := h.owned ref s' p e hcase.2 he
      have hr : r' ≠ r := by
        intro hr
        obtain rfl := hreq req' (hr ▸ hreq')
        exact hcase.1 hholds.session.symm
      exact ⟨r', req', hothers r' req' hr hreq', hholds⟩
  · intro r' req' hreq'
    cases requests_registerRequest hreq' with
    | inl hcase =>
      obtain ⟨t, ht⟩ := h.registeredId_generated hs hreq hfree
      rw [hcase.2]
      refine ⟨_, t, hsession, ?_⟩
      simp only [RequestIdMapper.generateProxyRequestId, sessionId_registeredMapper] at ht ⊢
      exact ht
    | inr hcase =>
      obtain ⟨s₀, t, hs₀, hp⟩ := h.generated r' req' hcase.2
      by_cases heq : req'.session = req.session
      · rw [heq, hs] at hs₀
        cases hs₀
        refine ⟨_, t, heq ▸ hsession, ?_⟩
        simp only [RequestIdMapper.generateProxyRequestId, sessionId_registeredMapper] at hp ⊢
        exact hp
      · exact ⟨s₀, t, (hsessions _ heq).trans hs₀, hp⟩
  · intro r₁ r₂ req₁ req₂ hreq₁ hreq₂ hsame hpending₁ hpending₂ hids
    cases requests_registerRequest hreq₁ with
    | inl hcase₁ =>
      cases requests_registerRequest hreq₂ with
      | inl hcase₂ => rw [hcase₁.1, hcase₂.1]
      | inr hcase₂ =>
        rw [hcase₁.2] at hsame hids
        exact absurd hids.symm (hfree r₂ req₂ hcase₂.2 hcase₂.1 hsame.symm hpending₂)
    | inr hcase₁ =>
      cases requests_registerRequest hreq₂ with
      | inl hcase₂ =>
        rw [hcase₂.2] at hsame hids
        exact absurd hids (hfree r₁ req₁ hcase₁.2 hcase₁.1 hsame hpending₁)
      | inr hcase₂ =>
        exact h.apart r₁ r₂ req₁ req₂ hcase₁.2 hcase₂.2 hsame hpending₁ hpending₂ hids

end Registration

variable {ref : ProxySessionRef} {a : RoutingAction} {r : Nat}

/-! ### Steps -/

theorem step_createSession {sessionId : SessionId} {userId : String}
    (h : st.step (.createSession ref sessionId userId) = some st') :
    st.proxySessions.get? sessionId.value = none ∧ st.sessions ref = none ∧
      st' = { st with
        proxySessions := st.proxySessions.set sessionId.value ref
        sessions := Function.update st.sessions ref
          (some ⟨sessionId, userId, .init sessionId.value⟩) } := by
  simp only [step] at h
  split at h
  · rename_i hnone
    simp only [Bool.and_eq_true, Option.isNone_iff_eq_none] at hnone
    exact ⟨hnone.1, hnone.2, (Option.some.inj h).symm⟩
  · cases h

theorem Ok.createSession (h : st.Ok) {sessionId : SessionId} {userId : String}
    (hs : st.step (.createSession ref sessionId userId) = some st') : st'.Ok := by
  obtain ⟨_, href, rfl⟩ := step_createSession hs
  have hother : ∀ ref' s, st.sessions ref' = some s → ref' ≠ ref := by
    intro ref' s hs heq
    rw [heq, href] at hs
    cases hs
  refine ⟨?_, ?_, ?_, ?_, ?_, h.apart⟩
  · intro id ref' hget
    simp only [Dict.get?_set] at hget
    split at hget
    · rename_i hid
      cases hget
      exact ⟨_, Function.update_self .., hid.symm⟩
    · obtain ⟨s, hs, hid⟩ := h.stored id ref' hget
      exact ⟨s, by simp [hother ref' s hs, hs], hid⟩
  · intro ref' s hs
    simp only [Function.update_apply] at hs
    split at hs
    · cases hs
      exact .init _
    · exact h.mapped ref' s hs
  · intro ref' s hs
    simp only [Function.update_apply] at hs
    split at hs
    · cases hs
      rfl
    · exact h.named ref' s hs
  · intro ref' s p e hs he
    simp only [Function.update_apply] at hs
    split at hs
    · cases hs
      simp [RequestIdMapper.init] at he
    · exact h.owned ref' s p e hs he
  · intro r req hreq
    obtain ⟨s, t, hs, hp⟩ := h.generated r req hreq
    exact ⟨s, t, by simp [hother _ s hs, hs], hp⟩

/-- A session is removed, and its maps are cleared. -/
theorem Ok.removeSession (h : st.Ok) (hs : st.sessions ref = some s) (key : String) :
    Ok { st.updateMapper ref fun _ => .init s.sessionId.value with
      proxySessions := st.proxySessions.erase key } := by
  have hok : (st.updateMapper ref fun _ => .init s.sessionId.value).Ok := by
    apply h.updateMapper
    intro s' hs'
    obtain rfl := Option.some.inj (hs.symm.trans hs')
    exact ⟨.init _, (h.named ref s hs).symm, RequestIdMapper.keeps_init _⟩
  refine ⟨?_, hok.mapped, hok.named, hok.owned, hok.generated, hok.apart⟩
  intro id ref' hget
  simp only [Dict.get?_erase] at hget
  split at hget
  · cases hget
  · exact hok.stored id ref' hget

theorem Ok.trackRequest (h : st.Ok) (p : String) (id : RequestId) (serverId : String)
    (client : ClientRef) : (st.trackRequest p id serverId client).Ok := by
  unfold RoutingState.trackRequest
  split
  · exact h
  · split
    · exact h
    · rename_i ref _
      apply h.updateMapper
      intro s hs
      exact ⟨(h.mapped ref s hs).registerDownstream .., by simp,
        RequestIdMapper.keeps_registerDownstream p id serverId (some client)⟩

variable {req : RoutedRequest}

/-- A request is sent, which is recorded. -/
theorem Ok.withSent (h : st.Ok) (hreq : st.requests r = some req)
    (sent : Option (ClientRef × RequestId)) (clients : ClientRef → Option TrackedClient) :
    Ok { st with
      clients := clients
      requests := Function.update st.requests r (some { req with sent := sent }) } := by
  have hback : ∀ r' req', Function.update st.requests r (some { req with sent := sent }) r' =
      some req' → ∃ req₀, st.requests r' = some req₀ ∧ req'.session = req₀.session ∧
        req'.completed = req₀.completed ∧ req'.proxyRequestId = req₀.proxyRequestId ∧
        req'.originalRequestId = req₀.originalRequestId := by
    intro r' req' hget
    simp only [Function.update_apply] at hget
    split at hget
    · rename_i hr
      cases hget
      exact ⟨req, hr ▸ hreq, rfl, rfl, rfl, rfl⟩
    · exact ⟨req', hget, rfl, rfl, rfl, rfl⟩
  refine ⟨h.stored, h.mapped, h.named, ?_, ?_, ?_⟩
  · intro ref s p e hs he
    obtain ⟨r', req', hreq', hholds⟩ := h.owned ref s p e hs he
    by_cases hr : r' = r
    · rw [hr, hreq] at hreq'
      cases hreq'
      exact ⟨r, _, Function.update_self .., hholds.session, hholds.pending,
        hholds.proxyRequestId, hholds.originalRequestId, hholds.progressToken⟩
    · exact ⟨r', req', by simp [hr, hreq'], hholds⟩
  · intro r' req' hget
    obtain ⟨req₀, hreq₀, hsession, _, hproxy, hid⟩ := hback r' req' hget
    rw [hsession, hproxy, hid]
    exact h.generated r' req₀ hreq₀
  · intro r₁ r₂ req₁ req₂ hget₁ hget₂ hsame hpending₁ hpending₂ hids
    obtain ⟨req₁', hreq₁, hsession₁, hcompleted₁, hproxy₁, _⟩ := hback r₁ req₁ hget₁
    obtain ⟨req₂', hreq₂, hsession₂, hcompleted₂, hproxy₂, _⟩ := hback r₂ req₂ hget₂
    rw [hsession₁, hsession₂] at hsame
    rw [hproxy₁, hproxy₂] at hids
    exact h.apart r₁ r₂ req₁' req₂' hreq₁ hreq₂ hsame (hcompleted₁ ▸ hpending₁)
      (hcompleted₂ ▸ hpending₂) hids

/-- A request is complete, and its mapping is gone. -/
theorem Ok.complete (h : st.Ok) (hreq : st.requests r = some req) :
    Ok { st.updateMapper req.session (·.removeMapping req.proxyRequestId) with
      requests := Function.update st.requests r (some { req with completed := true }) } := by
  have hok : (st.updateMapper req.session (·.removeMapping req.proxyRequestId)).Ok := by
    apply h.updateMapper
    intro s hs
    exact ⟨(h.mapped _ s hs).removeMapping _, by simp, RequestIdMapper.keeps_removeMapping _⟩
  refine ⟨hok.stored, hok.mapped, hok.named, ?_, ?_, ?_⟩
  · intro ref s p e hs he
    change (st.updateMapper req.session (·.removeMapping req.proxyRequestId)).sessions ref =
      some s at hs
    obtain ⟨r', req', hreq', hholds⟩ := hok.owned ref s p e hs he
    change st.requests r' = some req' at hreq'
    have hr : r' ≠ r := by
      intro hr
      obtain rfl := Option.some.inj ((hr ▸ hreq').symm.trans hreq)
      -- the mapping of the request itself was removed
      obtain ⟨s₀, hs₀, rfl⟩ := sessions_updateMapper_some hs
      rw [if_pos hholds.session.symm] at he
      exact (RequestIdMapper.get?_removeMapping he).1 hholds.proxyRequestId.symm
    exact ⟨r', req', by simp [hr, hreq'], hholds⟩
  · intro r' req' hget
    simp only [Function.update_apply] at hget
    split at hget
    · cases hget
      exact hok.generated r req hreq
    · exact hok.generated r' req' hget
  · intro r₁ r₂ req₁ req₂ hget₁ hget₂ hsame hpending₁ hpending₂ hids
    simp only [Function.update_apply] at hget₁ hget₂
    split at hget₁
    · cases hget₁
      cases hpending₁
    · split at hget₂
      · cases hget₂
        cases hpending₂
      · exact h.apart r₁ r₂ req₁ req₂ hget₁ hget₂ hsame hpending₁ hpending₂ hids

/-- `P` of every request that is registered, with its session and the proxy id that it gets. -/
def Registers (st : RoutingState) (P : Nat → ProxySessionRef → String → Prop) :
    RoutingAction → Prop
  | .register r ref originalRequestId progressToken method serverId idTime entryTime =>
    ∀ s, st.sessions ref = some s → P r ref (registeredId s
      ⟨ref, originalRequestId, progressToken, "", none, false⟩ method serverId idTime entryTime)
  | .retry r method serverId idTime entryTime =>
    ∀ req s, st.requests r = some req → st.sessions req.session = some s →
      P r req.session (registeredId s req method serverId idTime entryTime)
  | _ => True

theorem Registers.mono {P Q : Nat → ProxySessionRef → String → Prop} (h : st.Registers P a)
    (hmono : ∀ r ref p, P r ref p → Q r ref p) : st.Registers Q a := by
  cases a with
  | register r ref originalRequestId progressToken method serverId idTime entryTime =>
    intro s hs
    exact hmono _ _ _ (h s hs)
  | retry r method serverId idTime entryTime =>
    intro req s hreq hs
    exact hmono _ _ _ (h req s hreq hs)
  | _ => trivial

/-! What the larger steps do. -/

theorem step_removeSession (h : st.step (.removeSession ref) = some st') :
    ∃ s, st.sessions ref = some s ∧ st.proxySessions.get? s.sessionId.value = some ref ∧
      st' = { st.updateMapper ref fun _ => .init s.sessionId.value with
        proxySessions := st.proxySessions.erase s.sessionId.value } := by
  simp only [step] at h
  obtain ⟨s, hs, h⟩ := Option.bind_eq_some_iff.mp h
  split at h
  · rename_i hstored
    exact ⟨s, hs, hstored, (Option.some.inj h).symm⟩
  · cases h

variable {method serverId : Option String} {entryTime : Timestamp}

theorem step_register {originalRequestId : RequestId} {progressToken : Option RequestId}
    {idTime : Timestamp}
    (h : st.step (.register r ref originalRequestId progressToken method serverId idTime
      entryTime) = some st') :
    ∃ s, st.sessions ref = some s ∧ st.requests r = none ∧
      st' = st.registerRequest r ⟨ref, originalRequestId, progressToken, "", none, false⟩ s
        method serverId idTime entryTime := by
  simp only [step] at h
  obtain ⟨s, hs, h⟩ := Option.bind_eq_some_iff.mp h
  split at h
  · rename_i hnone
    exact ⟨s, hs, Option.isNone_iff_eq_none.mp hnone, (Option.some.inj h).symm⟩
  · cases h

theorem step_retry {idTime : Timestamp}
    (h : st.step (.retry r method serverId idTime entryTime) = some st') :
    ∃ req s, st.requests r = some req ∧ st.sessions req.session = some s ∧
      req.completed = false ∧
      st' = st.registerRequest r req s method serverId idTime entryTime := by
  simp only [step] at h
  obtain ⟨req, hreq, h⟩ := Option.bind_eq_some_iff.mp h
  obtain ⟨s, hs, h⟩ := Option.bind_eq_some_iff.mp h
  split at h
  · cases h
  · rename_i hpending
    exact ⟨req, s, hreq, hs, by simpa using hpending, (Option.some.inj h).symm⟩

theorem step_send {client : ClientRef} {id : RequestId} (h : st.step (.send r client id) = some st')
    :
    ∃ req used, st.requests r = some req ∧ req.completed = false ∧
      st' = { st.trackRequest req.proxyRequestId id used.serverId client with
        clients := Function.update st.clients client (some used)
        requests := Function.update st.requests r
          (some { req with sent := some (client, id) }) } := by
  simp only [step] at h
  obtain ⟨req, hreq, h⟩ := Option.bind_eq_some_iff.mp h
  obtain ⟨used, hused, h⟩ := Option.bind_eq_some_iff.mp h
  split at h
  · cases h
  · rename_i hpending
    exact ⟨req, used, hreq, by simpa using hpending, (Option.some.inj h).symm⟩

theorem step_complete (h : st.step (.complete r) = some st') :
    ∃ req, st.requests r = some req ∧
      st' = { st.updateMapper req.session (·.removeMapping req.proxyRequestId) with
        requests := Function.update st.requests r (some { req with completed := true }) } := by
  simp only [step] at h
  obtain ⟨req, hreq, h⟩ := Option.bind_eq_some_iff.mp h
  exact ⟨req, hreq, (Option.some.inj h).symm⟩

/-- An action that leaves the sessions and the requests alone. -/
def RoutesOnly : RoutingAction → Prop
  | .connect .. | .ownRequest .. | .closeClient .. | .setConnection .. | .removeContext .. => True
  | _ => False

theorem step_routesOnly (h : st.step a = some st') (ha : RoutesOnly a) :
    st'.proxySessions = st.proxySessions ∧ st'.sessions = st.sessions ∧
      st'.requests = st.requests := by
  cases a with
  | connect client serverId =>
    simp only [step] at h
    split at h
    · cases h
      exact ⟨rfl, rfl, rfl⟩
    · cases h
  | ownRequest client id =>
    simp only [step] at h
    obtain ⟨used, hused, h⟩ := Option.bind_eq_some_iff.mp h
    cases h
    exact ⟨rfl, rfl, rfl⟩
  | closeClient client =>
    cases h
    exact ⟨rfl, rfl, rfl⟩
  | setConnection key _ | removeContext key =>
    cases h
    cases key with
    | managed _ | temporary _ _ => exact ⟨rfl, rfl, rfl⟩
  | _ => exact ha.elim

theorem trackRequest_requests (p : String) (id : RequestId) (serverId : String)
    (client : ClientRef) : (st.trackRequest p id serverId client).requests = st.requests := by
  unfold RoutingState.trackRequest
  split
  · rfl
  · split
    · rfl
    · rfl

theorem Ok.step (h : st.Ok) (hfree : st.Registers st.IdFree a) (hstep : st.step a = some st') :
    st'.Ok := by
  cases a with
  | createSession _ _ _ => exact h.createSession hstep
  | removeSession ref =>
    obtain ⟨s, hs, _, rfl⟩ := step_removeSession hstep
    exact h.removeSession hs _
  | register r ref originalRequestId progressToken method serverId idTime entryTime =>
    obtain ⟨s, hs, hnone, rfl⟩ := step_register hstep
    apply h.registerRequest hs _ rfl (hfree s hs)
    intro req' hreq'
    rw [hnone] at hreq'
    cases hreq'
  | retry r method serverId idTime entryTime =>
    obtain ⟨req, s, hreq, hs, hpending, rfl⟩ := step_retry hstep
    apply h.registerRequest hs _ hpending (hfree req s hreq hs)
    intro req' hreq'
    exact Option.some.inj (hreq'.symm.trans hreq)
  | send r client id =>
    obtain ⟨req, used, hreq, _, rfl⟩ := step_send hstep
    have htracked := h.trackRequest req.proxyRequestId id used.serverId client
    have hsent := htracked.withSent ((trackRequest_requests ..).symm ▸ hreq) (some (client, id))
      (Function.update st.clients client (some used))
    rw [trackRequest_requests] at hsent
    exact hsent
  | removeMapping ref p =>
    cases hstep
    apply h.updateMapper
    intro s hs
    exact ⟨(h.mapped ref s hs).removeMapping p, by simp, RequestIdMapper.keeps_removeMapping p⟩
  | complete r =>
    obtain ⟨req, hreq, rfl⟩ := step_complete hstep
    exact h.complete hreq
  | cleanupExpired ref now =>
    cases hstep
    apply h.updateMapper
    intro s hs
    exact ⟨RequestIdMapper.cleanupExpired_induct (fun _ p hm => hm.removeMapping p)
      (h.mapped ref s hs) now, RequestIdMapper.sessionId_cleanupExpired now,
      RequestIdMapper.keeps_cleanupExpired now⟩
  | _ =>
    obtain ⟨hstore, hsessions, hrequests⟩ := step_routesOnly hstep trivial
    exact h.congr hstore hsessions hrequests

/-! ### Requests of a run -/

/-- The request that an action is about. -/
def requestOf : RoutingAction → Option Nat
  | .register r .. | .retry r .. | .send r .. | .complete r => some r
  | _ => none

theorem requests_step (hstep : st.step a = some st') (hr : requestOf a ≠ some r) :
    st'.requests r = st.requests r := by
  have hne : ∀ {r'}, some r' ≠ some r → r ≠ r' := fun hne heq => hne (congrArg some heq.symm)
  cases a with
  | createSession ref sessionId userId =>
    obtain ⟨_, _, rfl⟩ := step_createSession hstep
    rfl
  | removeSession ref =>
    obtain ⟨s, _, _, rfl⟩ := step_removeSession hstep
    rfl
  | register r' ref originalRequestId progressToken method serverId idTime entryTime =>
    obtain ⟨s, _, _, rfl⟩ := step_register hstep
    simp [RoutingState.registerRequest, hne hr]
  | retry r' method serverId idTime entryTime =>
    obtain ⟨req, s, _, _, _, rfl⟩ := step_retry hstep
    simp [RoutingState.registerRequest, hne hr]
  | send r' client id =>
    obtain ⟨req, used, _, _, rfl⟩ := step_send hstep
    simp [hne hr]
  | removeMapping _ _ | cleanupExpired _ _ =>
    cases hstep
    rfl
  | complete r' =>
    obtain ⟨req, _, rfl⟩ := step_complete hstep
    simp [hne hr]
  | _ =>
    obtain ⟨_, _, hrequests⟩ := step_routesOnly hstep trivial
    rw [hrequests]

/-- A run that is about some requests only has no others. -/
theorem requests_of_run {trs : List (Transition RoutingState RoutingAction)} {st : RoutingState}
    (hrun : IsRun RoutingState.step .init trs st) (hr : ∀ tr ∈ trs, requestOf tr.act ≠ some r) :
    st.requests r = none :=
  IsRun.history_of (G := fun tr => requestOf tr.act ≠ some r)
    (P := fun _ st => st.requests r = none) rfl
    (fun _ _ _ _ _ h hstep hguard => (requests_step hstep hguard).trans h) hrun hr

theorem requests_of_mem {trs : List (Transition RoutingState RoutingAction)} {st : RoutingState}
    (hrun : IsRun RoutingState.step .init trs st) (hr : ∀ tr ∈ trs, requestOf tr.act ≠ some r)
    {tr : Transition RoutingState RoutingAction} (htr : tr ∈ trs) :
    tr.pre.requests r = none ∧ tr.post.requests r = none := by
  obtain ⟨xs, ys, rfl⟩ := List.append_of_mem htr
  obtain ⟨hxs, hstep, _⟩ := hrun.split
  have hpre := requests_of_run hxs fun tr' htr' => hr tr' (List.mem_append_left _ htr')
  exact ⟨hpre, (requests_step hstep (hr tr (by simp))).trans hpre⟩

/-! ## Progress -/

/-- The ids of the requests of one session that are not complete are different as texts. -/
def IdsApart (st : RoutingState) : Prop :=
  ∀ r r' req req', st.requests r = some req → st.requests r' = some req' →
    req.session = req'.session → req.completed = false → req'.completed = false →
      req.originalRequestId.text = req'.originalRequestId.text → r = r'

/-- When the ids are different, so are the proxy ids. -/
theorem Ok.idFree_of_idsApart (h : st.Ok)
    {idTime : Timestamp} (hs : st.sessions req.session = some s) (hpending : req.completed = false)
    (hids : (st.registerRequest r req s method serverId idTime entryTime).IdsApart) :
    st.IdFree r req.session (registeredId s req method serverId idTime entryTime) := by
  intro r' req' hreq' hr hsession hpending' hproxy
  have hsameText : ∀ r₁ req₁, r₁ ≠ r → st.requests r₁ = some req₁ → req₁.session = req.session →
      req₁.completed = false → req₁.originalRequestId.text ≠ req.originalRequestId.text := by
    intro r₁ req₁ hr₁ hreq₁ hsession₁ hpending₁ htext
    refine hr₁ (hids r₁ r req₁ _ ?_ registerRequest_self hsession₁ hpending₁ hpending htext)
    simp [RoutingState.registerRequest, hr₁, hreq₁]
  have hmapped := h.mapped _ s hs
  unfold registeredId at hproxy
  cases hmapped.registerClientRequest_cases req.originalRequestId method serverId idTime
    entryTime with
  | inl hcase =>
    obtain ⟨p, hid, hregister⟩ := hcase
    rw [hregister] at hproxy
    obtain ⟨e, he, heid⟩ := hmapped.entry_of_clientToProxy hid
    obtain ⟨r₁, req₁, hreq₁, hholds⟩ := h.owned _ s p e hs he
    by_cases hr₁ : r₁ = r
    · -- the request has this proxy id already, and nobody else has
      rw [hr₁] at hreq₁
      exact hr (h.apart r' r req' req₁ hreq' hreq₁ (hsession.trans hholds.session.symm) hpending'
        hholds.pending (hproxy.trans hholds.proxyRequestId.symm))
    · apply hsameText r₁ req₁ hr₁ hreq₁ hholds.session hholds.pending
      rw [← hholds.originalRequestId, heid]
  | inr hcase =>
    obtain ⟨_, e, m', _, _, _, _, _, hregister⟩ := hcase
    rw [hregister] at hproxy
    obtain ⟨s', t, hs', hp⟩ := h.generated r' req' hreq'
    rw [hsession, hs] at hs'
    cases hs'
    exact hsameText r' req' hr hreq' hsession hpending'
      (RequestIdMapper.text_of_generateProxyRequestId (hp.symm.trans hproxy))

theorem Ok.registers_of_idsApart (h : st.Ok) (hstep : st.step a = some st') (hids : st'.IdsApart) :
    st.Registers st.IdFree a := by
  cases a with
  | register r ref originalRequestId progressToken method serverId idTime entryTime =>
    intro s hs
    obtain ⟨s', hs', _, rfl⟩ := step_register hstep
    obtain rfl := Option.some.inj (hs.symm.trans hs')
    exact h.idFree_of_idsApart hs rfl hids
  | retry r method serverId idTime entryTime =>
    intro req s hreq hs
    obtain ⟨req', s', hreq', hs', hpending, rfl⟩ := step_retry hstep
    obtain rfl := Option.some.inj (hreq.symm.trans hreq')
    obtain rfl := Option.some.inj (hs.symm.trans hs')
    exact h.idFree_of_idsApart hs hpending hids
  | _ => trivial

/-- The request is not complete and has a mapping. -/
structure Registered (st : RoutingState) (req : RoutedRequest) : Prop where
  pending : req.completed = false
  mapped : ∃ s, st.sessions req.session = some s ∧
    (s.requestIdMapper.proxyToDownstream.get? req.proxyRequestId).isSome = true

/-- What is delivered belongs to a request that is registered. -/
theorem Ok.owner_of_delivered (h : st.Ok) {token : RequestId} {d : DeliveredProgress}
    (hd : st.handleProgressNotification token = some d) :
    ∃ r req, st.requests r = some req ∧ token = .str req.proxyRequestId ∧
      req.session = d.session ∧ st.Registered req ∧ req.progressToken = some d.progressToken ∧
      req.originalRequestId = d.relatedRequestId := by
  cases token with
  | num n => cases hd
  | str p =>
    simp only [handleProgressNotification] at hd
    obtain ⟨sessionId, hsid, hd⟩ := Option.bind_eq_some_iff.mp hd
    obtain ⟨ref, href, hd⟩ := Option.bind_eq_some_iff.mp hd
    obtain ⟨s, hs, hd⟩ := Option.bind_eq_some_iff.mp hd
    split at hd
    · simp only [forwardProgressToClient] at hd
      obtain ⟨progressToken, htoken, hd⟩ := Option.bind_eq_some_iff.mp hd
      obtain ⟨originalRequestId, horiginal, hd⟩ := Option.bind_eq_some_iff.mp hd
      cases hd
      unfold RequestIdMapper.getOriginalProgressToken at htoken
      unfold RequestIdMapper.getOriginalRequestId at horiginal
      obtain ⟨e, he, hetoken⟩ := Option.bind_eq_some_iff.mp htoken
      rw [(h.mapped ref s hs).original, he] at horiginal
      obtain ⟨r, req, hreq, hholds⟩ := h.owned ref s p e hs he
      refine ⟨r, req, hreq, ?_, hholds.session, ⟨hholds.pending, s, ?_, ?_⟩, ?_, ?_⟩
      · rw [hholds.proxyRequestId]
      · rw [hholds.session]
        exact hs
      · rw [hholds.proxyRequestId, he]
        rfl
      · rw [← hholds.progressToken]
        exact hetoken
      · rw [← hholds.originalRequestId]
        exact Option.some.inj horiginal
    · cases hd

end RoutingState

/-- A progress notification is delivered only when its token is the proxy id of a request that is
    registered and that the client gave a token, with this token and the request's own id. When
    every request with this proxy id has no token, is complete or has expired, it is dropped. -/
theorem progress_reaches_owner {trs : List (Transition RoutingState RoutingAction)}
    {st : RoutingState} (hrun : IsRun RoutingState.step .init trs st)
    (hids : ∀ tr ∈ trs, tr.post.IdsApart) :
    (∀ token d, st.handleProgressNotification token = some d →
      ∃ r req, st.requests r = some req ∧ token = .str req.proxyRequestId ∧
        req.session = d.session ∧ st.Registered req ∧ req.progressToken = some d.progressToken ∧
        req.originalRequestId = d.relatedRequestId ∧
        ∀ r' req', st.requests r' = some req' → token = .str req'.proxyRequestId →
          req'.session = d.session → st.Registered req' → r' = r) ∧
    (∀ p, (∀ r req, st.requests r = some req → req.proxyRequestId = p →
        req.progressToken = none ∨ ¬ st.Registered req) →
      st.handleProgressNotification (.str p) = none) := by
  have hst : st.Ok := IsRun.history_of (G := fun tr => tr.post.IdsApart)
    (P := fun _ st => st.Ok) RoutingState.Ok.init
    (fun _ _ _ _ _ h hstep hapart => h.step (h.registers_of_idsApart hstep hapart) hstep)
    hrun hids
  constructor
  · intro token d hd
    obtain ⟨r, req, hreq, htoken, hsession, hregistered, hprogress, horiginal⟩ :=
      hst.owner_of_delivered hd
    refine ⟨r, req, hreq, htoken, hsession, hregistered, hprogress, horiginal, ?_⟩
    intro r' req' hreq' htoken' hsession' hregistered'
    apply hst.apart r' r req' req hreq' hreq (hsession'.trans hsession.symm) hregistered'.pending
      hregistered.pending
    exact RequestId.str.inj (htoken'.symm.trans htoken)
  · intro p hnone
    rw [Option.eq_none_iff_forall_ne_some]
    intro d hd
    obtain ⟨r, req, hreq, htoken, _, hregistered, hprogress, _⟩ := hst.owner_of_delivered hd
    cases hnone r req hreq (RequestId.str.inj htoken).symm with
    | inl htokenless =>
      rw [htokenless] at hprogress
      cases hprogress
    | inr hgone => exact hgone hregistered

/-! ## Cancellations -/

namespace RoutingState

variable {ref : ProxySessionRef}

variable {st st' : RoutingState}

/-- No other request that is not complete, of any session, has the proxy id. -/
def IdUnused (st : RoutingState) (r : Nat) (p : String) : Prop :=
  ∀ r' req', st.requests r' = some req' → r' ≠ r → req'.completed = false → req'.proxyRequestId ≠ p

/-- The entries know the latest request downstream. -/
structure SendsOk (st : RoutingState) : Prop extends st.Ok where
  unique : ∀ r r' req req', st.requests r = some req → st.requests r' = some req' →
    req.completed = false → req'.completed = false →
      req.proxyRequestId = req'.proxyRequestId → r = r'
  active : ∀ ref s p e, st.sessions ref = some s →
    s.requestIdMapper.proxyToDownstream.get? p = some e → e.downstreamRequestId ≠ none →
      st.proxySessions.get? s.sessionId.value = some ref
  sent : ∀ ref s p e r req d, st.sessions ref = some s →
    s.requestIdMapper.proxyToDownstream.get? p = some e → e.downstreamRequestId = some d →
      st.requests r = some req → req.Holds ref p e → ∃ c, e.client = some c ∧ req.sent = some (c, d)

theorem SendsOk.init : RoutingState.init.SendsOk := by
  refine ⟨.init, ?_, ?_, ?_⟩
  all_goals simp [RoutingState.init]

/-- Entries that are only dropped. -/
theorem SendsOk.dropEntries (h : st.SendsOk) (hok : st'.Ok)
    (hrequests : st'.requests = st.requests)
    (hsessions : ∀ ref s' p e, st'.sessions ref = some s' →
      s'.requestIdMapper.proxyToDownstream.get? p = some e →
        ∃ s, st.sessions ref = some s ∧ s'.sessionId = s.sessionId ∧
          s.requestIdMapper.proxyToDownstream.get? p = some e)
    (hstore : ∀ ref s p e, st'.sessions ref = some s →
      s.requestIdMapper.proxyToDownstream.get? p = some e →
        st.proxySessions.get? s.sessionId.value = some ref →
          st'.proxySessions.get? s.sessionId.value = some ref) : st'.SendsOk := by
  refine ⟨hok, ?_, ?_, ?_⟩
  · rw [hrequests]
    exact h.unique
  · intro ref s' p e hs' he hdown
    obtain ⟨s, hs, hid, he₀⟩ := hsessions ref s' p e hs' he
    apply hstore ref s' p e hs' he
    rw [hid]
    exact h.active ref s p e hs he₀ hdown
  · intro ref s' p e r req d hs' he hdown hreq hholds
    obtain ⟨s, hs, _, he₀⟩ := hsessions ref s' p e hs' he
    rw [hrequests] at hreq
    exact h.sent ref s p e r req d hs he₀ hdown hreq hholds

theorem SendsOk.updateMapper (h : st.SendsOk) {f : RequestIdMapper → RequestIdMapper}
    (hok : (st.updateMapper ref f).Ok) (hf : ∀ m p e, (f m).proxyToDownstream.get? p = some e →
      m.proxyToDownstream.get? p = some e) : (st.updateMapper ref f).SendsOk := by
  apply h.dropEntries hok rfl
  · intro ref' s' p e hs' he
    obtain ⟨s, hs, rfl⟩ := sessions_updateMapper_some hs'
    refine ⟨s, hs, rfl, ?_⟩
    simp only at he
    split at he
    · exact hf _ p e he
    · exact he
  · intro ref' s p e hs he hstored
    exact hstored

variable {s : RoutedSession} {req : RoutedRequest}

variable {r : Nat}

theorem SendsOk.registerRequest (h : st.SendsOk)
    {method serverId : Option String} {idTime entryTime : Timestamp}
    (hs : st.sessions req.session = some s)
    (hreq : ∀ req', st.requests r = some req' → req' = req) (hpending : req.completed = false)
    (hfree : st.IdUnused r (registeredId s req method serverId idTime entryTime)) :
    (st.registerRequest r req s method serverId idTime entryTime).SendsOk := by
  have hfree' : st.IdFree r req.session (registeredId s req method serverId idTime entryTime) :=
    fun r' req' hreq' hr _ => hfree r' req' hreq' hr
  obtain ⟨_, hentries⟩ := h.toOk.registered_entries hs hreq hfree'
  refine ⟨h.toOk.registerRequest hs hreq hpending hfree', ?_, ?_, ?_⟩
  · intro r₁ r₂ req₁ req₂ hreq₁ hreq₂ hpending₁ hpending₂ hids
    cases requests_registerRequest hreq₁ with
    | inl hcase₁ =>
      cases requests_registerRequest hreq₂ with
      | inl hcase₂ => rw [hcase₁.1, hcase₂.1]
      | inr hcase₂ =>
        rw [hcase₁.2] at hids
        exact absurd hids.symm (hfree r₂ req₂ hcase₂.2 hcase₂.1 hpending₂)
    | inr hcase₁ =>
      cases requests_registerRequest hreq₂ with
      | inl hcase₂ =>
        rw [hcase₂.2] at hids
        exact absurd hids (hfree r₁ req₁ hcase₁.2 hcase₁.1 hpending₁)
      | inr hcase₂ => exact h.unique r₁ r₂ req₁ req₂ hcase₁.2 hcase₂.2 hpending₁ hpending₂ hids
  · intro ref s' p e hs' he hdown
    cases sessions_registerRequest hs' with
    | inl hcase =>
      rw [hcase.2] at he ⊢
      rw [hcase.1]
      cases hentries p e he with
      | inl hown =>
        obtain ⟨_, _, _, hdownstream⟩ := hown
        cases hdownstream with
        | inl hnone => exact absurd hnone hdown
        | inr hold =>
          obtain ⟨e₀, he₀, hsame, _⟩ := hold
          exact h.active _ s p e₀ hs he₀ (hsame ▸ hdown)
      | inr hold => exact h.active _ s p e hs hold.1 hdown
    | inr hcase => exact h.active ref s' p e hcase.2 he hdown
  · intro ref s' p e r' req' d hs' he hdown hreq' hholds
    cases sessions_registerRequest hs' with
    | inl hcase =>
      rw [hcase.2] at he
      cases hentries p e he with
      | inl hown =>
        obtain ⟨hp, horiginal, htoken, hdownstream⟩ := hown
        cases hdownstream with
        | inl hnone =>
          rw [hdown] at hnone
          cases hnone
        | inr hold =>
          obtain ⟨e₀, he₀, hsame, hclient⟩ := hold
          -- the entry was there before, so this is a retry of the request
          obtain ⟨req₀, hreq₀, hholds₀⟩ := h.toOk.holds_of_idFree hs hfree' (hp ▸ he₀)
          obtain rfl := hreq req₀ hreq₀
          obtain ⟨c, hc, hsent⟩ := h.sent _ s p e₀ r req₀ d hs he₀ (hsame ▸ hdown) hreq₀
            (hp ▸ hholds₀)
          cases requests_registerRequest hreq' with
          | inl hcase' =>
            rw [hcase'.2]
            exact ⟨c, hclient.trans hc, hsent⟩
          | inr hcase' =>
            exact absurd (hholds.proxyRequestId.trans hp)
              (hfree r' req' hcase'.2 hcase'.1 hholds.pending)
      | inr hold =>
        cases requests_registerRequest hreq' with
        | inl hcase' =>
          rw [hcase'.2] at hholds
          exact absurd hholds.originalRequestId hold.2
        | inr hcase' =>
          exact h.sent _ s p e r' req' d hs hold.1 hdown hcase'.2 (hcase.1 ▸ hholds)
    | inr hcase =>
      cases requests_registerRequest hreq' with
      | inl hcase' =>
        rw [hcase'.2] at hholds
        exact absurd hholds.session.symm hcase.1
      | inr hcase' => exact h.sent ref s' p e r' req' d hcase.2 he hdown hcase'.2 hholds

/-- The session that a request downstream is tracked in. -/
theorem sessions_trackRequest {p serverId : String} {id : RequestId} {client : ClientRef}
    {s' : RoutedSession} (h : (st.trackRequest p id serverId client).sessions ref = some s') :
    ∃ s, st.sessions ref = some s ∧ s'.sessionId = s.sessionId ∧
      (((extractSessionIdFromProxyRequestId p).bind st.proxySessions.get? ≠ some ref ∧
        s'.requestIdMapper = s.requestIdMapper) ∨
      ((extractSessionIdFromProxyRequestId p).bind st.proxySessions.get? = some ref ∧
        s'.requestIdMapper =
          s.requestIdMapper.registerDownstreamMapping p id serverId (some client))) := by
  unfold RoutingState.trackRequest at h
  cases hsid : extractSessionIdFromProxyRequestId p with
  | none =>
    simp only [hsid] at h
    exact ⟨s', h, rfl, .inl ⟨by simp, rfl⟩⟩
  | some sessionId =>
    simp only [hsid] at h
    cases hstored : st.proxySessions.get? sessionId with
    | none =>
      simp only [hstored] at h
      exact ⟨s', h, rfl, .inl ⟨by simp [hstored], rfl⟩⟩
    | some ref' =>
      simp only [hstored] at h
      obtain ⟨s, hs, rfl⟩ := sessions_updateMapper_some h
      refine ⟨s, hs, rfl, ?_⟩
      by_cases href : ref = ref'
      · exact .inr ⟨by simp [hstored, href], by simp [href]⟩
      · exact .inl ⟨by simp [hstored, Ne.symm href], by simp [href]⟩

theorem trackRequest_proxySessions (p : String) (id : RequestId) (serverId : String)
    (client : ClientRef) :
    (st.trackRequest p id serverId client).proxySessions = st.proxySessions := by
  unfold RoutingState.trackRequest
  split
  · rfl
  · split
    · rfl
    · rfl

/-- A request that has a request downstream is tracked in its own session. -/
theorem SendsOk.tracked (h : st.SendsOk) {p : String} {e : MappingEntry}
    (hs : st.sessions ref = some s) (he : s.requestIdMapper.proxyToDownstream.get? p = some e)
    (hdown : e.downstreamRequestId ≠ none) (hreq : st.requests r = some req)
    (hholds : req.Holds ref p e) :
    (extractSessionIdFromProxyRequestId req.proxyRequestId).bind st.proxySessions.get? = some ref := by
  obtain ⟨s₀, t, hs₀, hp⟩ := h.generated r req hreq
  rw [hholds.session, hs] at hs₀
  cases hs₀
  rw [hp, RequestIdMapper.extractSessionId_generateProxyRequestId (h.named ref s hs)]
  exact h.active ref s p e hs he hdown

theorem SendsOk.send (h : st.SendsOk) {client : ClientRef}
    {id : RequestId} {serverId : String} {clients : ClientRef → Option TrackedClient}
    (hreq : st.requests r = some req) (hpending : req.completed = false)
    (hok : Ok { st.trackRequest req.proxyRequestId id serverId client with
      clients := clients
      requests := Function.update st.requests r (some { req with sent := some (client, id) }) }) :
    SendsOk { st.trackRequest req.proxyRequestId id serverId client with
      clients := clients
      requests := Function.update st.requests r (some { req with sent := some (client, id) }) } := by
  have hback : ∀ r' req', Function.update st.requests r
      (some { req with sent := some (client, id) }) r' = some req' →
      (r' = r ∧ req' = { req with sent := some (client, id) }) ∨
        (r' ≠ r ∧ st.requests r' = some req') := by
    intro r' req' hget
    simp only [Function.update_apply] at hget
    split at hget
    · rename_i hr
      exact .inl ⟨hr, (Option.some.inj hget).symm⟩
    · rename_i hr
      exact .inr ⟨hr, hget⟩
  refine ⟨hok, ?_, ?_, ?_⟩
  · intro r₁ r₂ req₁ req₂ hget₁ hget₂ hpending₁ hpending₂ hids
    cases hback r₁ req₁ hget₁ with
    | inl hcase₁ =>
      rw [hcase₁.2] at hids
      cases hback r₂ req₂ hget₂ with
      | inl hcase₂ => rw [hcase₁.1, hcase₂.1]
      | inr hcase₂ =>
        rw [hcase₁.1]
        exact h.unique r r₂ req req₂ hreq hcase₂.2 hpending hpending₂ hids
    | inr hcase₁ =>
      cases hback r₂ req₂ hget₂ with
      | inl hcase₂ =>
        rw [hcase₂.2] at hids
        rw [hcase₂.1]
        exact h.unique r₁ r req₁ req hcase₁.2 hreq hpending₁ hpending hids
      | inr hcase₂ => exact h.unique r₁ r₂ req₁ req₂ hcase₁.2 hcase₂.2 hpending₁ hpending₂ hids
  · intro ref s' p e hs' he hdown
    change (st.trackRequest req.proxyRequestId id serverId client).proxySessions.get? _ = _
    rw [trackRequest_proxySessions]
    obtain ⟨s, hs, hid, hmapper⟩ := sessions_trackRequest hs'
    rw [hid]
    cases hmapper with
    | inl hsame =>
      rw [hsame.2] at he
      exact h.active ref s p e hs he hdown
    | inr htracked =>
      rw [htracked.2] at he
      cases RequestIdMapper.get?_registerDownstream he with
      | inl hother => exact h.active ref s p e hs hother.2 hdown
      | inr hown =>
        obtain ⟨sessionId, _, hstored⟩ := Option.bind_eq_some_iff.mp htracked.1
        obtain ⟨s₀, hs₀, hid₀⟩ := h.stored sessionId ref hstored
        obtain rfl := Option.some.inj (hs.symm.trans hs₀)
        rw [hid₀]
        exact hstored
  · intro ref s' p e r' req' d hs' he hdown hget hholds
    obtain ⟨s, hs, _, hmapper⟩ := sessions_trackRequest hs'
    have hbefore : s.requestIdMapper.proxyToDownstream.get? p = some e → r' ≠ r →
        ∃ c, e.client = some c ∧ req'.sent = some (c, d) := by
      intro he₀ hr
      cases hback r' req' hget with
      | inl hcase => exact absurd hcase.1 hr
      | inr hcase => exact h.sent ref s p e r' req' d hs he₀ hdown hcase.2 hholds
    cases hmapper with
    | inl hsame =>
      rw [hsame.2] at he
      apply hbefore he
      intro hr
      -- the request would have been tracked in this session
      cases hback r' req' hget with
      | inl hcase =>
        rw [hcase.2] at hholds
        exact hsame.1 (h.tracked hs he (by simp [hdown]) hreq
          ⟨hholds.session, hholds.pending, hholds.proxyRequestId, hholds.originalRequestId,
            hholds.progressToken⟩)
      | inr hcase => exact hcase.1 hr
    | inr htracked =>
      rw [htracked.2] at he
      cases RequestIdMapper.get?_registerDownstream he with
      | inl hother =>
        apply hbefore hother.2
        intro hr
        cases hback r' req' hget with
        | inl hcase =>
          rw [hcase.2] at hholds
          exact hother.1 hholds.proxyRequestId.symm
        | inr hcase => exact hcase.1 hr
      | inr hown =>
        obtain ⟨hp, e₀, he₀, rfl⟩ := hown
        cases hdown
        cases hback r' req' hget with
        | inl hcase =>
          rw [hcase.2]
          exact ⟨client, rfl, rfl⟩
        | inr hcase =>
          exact absurd (h.unique r' r req' req hcase.2 hreq hholds.pending hpending
            (hholds.proxyRequestId.trans hp)) hcase.1

theorem SendsOk.createSession (h : st.SendsOk) {sessionId : SessionId} {userId : String}
    (hs : st.step (.createSession ref sessionId userId) = some st') : st'.SendsOk := by
  have hok := h.toOk.createSession hs
  obtain ⟨hfree, _, rfl⟩ := step_createSession hs
  apply h.dropEntries hok rfl
  · intro ref' s' p e hs' he
    simp only [Function.update_apply] at hs'
    split at hs'
    · cases hs'
      simp [RequestIdMapper.init] at he
    · exact ⟨s', hs', rfl, he⟩
  · intro ref' s' p e hs' he hstored
    have hid : s'.sessionId.value ≠ sessionId.value := by
      intro hid
      rw [hid, hfree] at hstored
      cases hstored
    simp only [Dict.get?_set, if_neg hid]
    exact hstored

theorem SendsOk.removeSession (h : st.SendsOk) (hs : st.sessions ref = some s)
    (hactive : st.proxySessions.get? s.sessionId.value = some ref) :
    SendsOk { st.updateMapper ref fun _ => .init s.sessionId.value with
      proxySessions := st.proxySessions.erase s.sessionId.value } := by
  apply h.dropEntries (h.toOk.removeSession hs _) rfl
  · intro ref' s' p e hs' he
    change (st.updateMapper ref fun _ => .init s.sessionId.value).sessions ref' = some s' at hs'
    obtain ⟨s₀, hs₀, rfl⟩ := sessions_updateMapper_some hs'
    refine ⟨s₀, hs₀, rfl, ?_⟩
    simp only at he
    split at he
    · simp [RequestIdMapper.init] at he
    · exact he
  · intro ref' s' p e hs' he hstored
    change (st.updateMapper ref fun _ => .init s.sessionId.value).sessions ref' = some s' at hs'
    obtain ⟨s₀, hs₀, rfl⟩ := sessions_updateMapper_some hs'
    have hid : s₀.sessionId.value ≠ s.sessionId.value := by
      intro hid
      simp only [hid, hactive] at hstored
      -- the session with this id has no entries any more
      rw [if_pos (Option.some.inj hstored).symm] at he
      simp [RequestIdMapper.init] at he
    simp only [Dict.get?_erase, if_neg hid]
    exact hstored

theorem SendsOk.complete (h : st.SendsOk) (hreq : st.requests r = some req) :
    SendsOk { st.updateMapper req.session (·.removeMapping req.proxyRequestId) with
      requests := Function.update st.requests r (some { req with completed := true }) } := by
  have hpending : ∀ r' req', Function.update st.requests r
      (some { req with completed := true }) r' = some req' → req'.completed = false →
        st.requests r' = some req' := by
    intro r' req' hget hpending'
    simp only [Function.update_apply] at hget
    split at hget
    · cases hget
      cases hpending'
    · exact hget
  refine ⟨h.toOk.complete hreq, ?_, ?_, ?_⟩
  · intro r₁ r₂ req₁ req₂ hget₁ hget₂ hpending₁ hpending₂
    exact h.unique r₁ r₂ req₁ req₂ (hpending r₁ req₁ hget₁ hpending₁)
      (hpending r₂ req₂ hget₂ hpending₂) hpending₁ hpending₂
  · intro ref s' p e hs' he hdown
    change (st.updateMapper req.session (·.removeMapping req.proxyRequestId)).sessions ref =
      some s' at hs'
    obtain ⟨s, hs, rfl⟩ := sessions_updateMapper_some hs'
    simp only at he
    split at he
    · exact h.active ref s p e hs (RequestIdMapper.get?_removeMapping he).2 hdown
    · exact h.active ref s p e hs he hdown
  · intro ref s' p e r' req' d hs' he hdown hget hholds
    change (st.updateMapper req.session (·.removeMapping req.proxyRequestId)).sessions ref =
      some s' at hs'
    obtain ⟨s, hs, rfl⟩ := sessions_updateMapper_some hs'
    have hreq' := hpending r' req' hget hholds.pending
    simp only at he
    split at he
    · exact h.sent ref s p e r' req' d hs (RequestIdMapper.get?_removeMapping he).2 hdown hreq'
        hholds
    · exact h.sent ref s p e r' req' d hs he hdown hreq' hholds

theorem SendsOk.step (h : st.SendsOk) {a : RoutingAction}
    (hunused : st.Registers (fun r _ p => st.IdUnused r p) a) (hstep : st.step a = some st') :
    st'.SendsOk := by
  have hfree : st.Registers st.IdFree a :=
    hunused.mono fun _ _ _ hid r' req' hreq' hr _ => hid r' req' hreq' hr
  have hok := h.toOk.step hfree hstep
  cases a with
  | createSession _ _ _ => exact h.createSession hstep
  | removeSession ref =>
    obtain ⟨s, hs, hactive, rfl⟩ := step_removeSession hstep
    exact h.removeSession hs hactive
  | register r ref originalRequestId progressToken method serverId idTime entryTime =>
    obtain ⟨s, hs, hnone, rfl⟩ := step_register hstep
    apply h.registerRequest hs _ rfl (hunused s hs)
    intro req' hreq'
    rw [hnone] at hreq'
    cases hreq'
  | retry r method serverId idTime entryTime =>
    obtain ⟨req, s, hreq, hs, hpending, rfl⟩ := step_retry hstep
    apply h.registerRequest hs _ hpending (hunused req s hreq hs)
    intro req' hreq'
    exact Option.some.inj (hreq'.symm.trans hreq)
  | send r client id =>
    obtain ⟨req, used, hreq, hpending, rfl⟩ := step_send hstep
    exact h.send hreq hpending hok
  | removeMapping ref p =>
    cases hstep
    exact h.updateMapper hok fun _ _ _ he => (RequestIdMapper.get?_removeMapping he).2
  | complete r =>
    obtain ⟨req, hreq, rfl⟩ := step_complete hstep
    exact h.complete hreq
  | cleanupExpired ref now =>
    cases hstep
    exact h.updateMapper hok fun _ _ _ he => RequestIdMapper.get?_cleanupExpired he
  | _ =>
    obtain ⟨hstore, hsessions, hrequests⟩ := step_routesOnly hstep trivial
    apply h.dropEntries hok hrequests
    · intro ref s p e hs he
      exact ⟨s, hsessions ▸ hs, rfl, he⟩
    · intro ref s p e _ _ hstored
      rw [hstore]
      exact hstored

/-- The server context of a request still has the connection that the request was sent on. -/
def ConnectionKept (st : RoutingState) (s : RoutedSession) (id : RequestId) : Prop :=
  ∀ p e serverId, s.requestIdMapper.clientToProxy id = some p →
    s.requestIdMapper.proxyToDownstream.get? p = some e → e.serverId = some serverId →
      st.getConnection serverId s.userId = e.client

end RoutingState

/-- In every run in which each registration gets a proxy id that no other request that is not
    complete has: a cancellation that is forwarded for a request names the connection and the id
    of its latest request downstream exactly when the server context still has this connection. -/
theorem cancellation_names_request_iff {trs : List (Transition RoutingState RoutingAction)}
    {st : RoutingState} (hrun : IsRun RoutingState.step .init trs st)
    (hunused : ∀ tr ∈ trs, tr.pre.Registers (fun r _ p => tr.pre.IdUnused r p) tr.act)
    {ref : ProxySessionRef} {s : RoutedSession} (hs : st.sessions ref = some s) {id : RequestId}
    {n : ForwardedCancellation} (hn : st.handleCancelledNotification s id = some n) :
    ∃ r req, st.requests r = some req ∧ req.session = ref ∧ req.originalRequestId = id ∧
      st.Registered req ∧
      (req.sent = some (n.client, n.requestId) ↔ st.ConnectionKept s id) := by
  have hst : st.SendsOk := IsRun.history_of
    (G := fun tr => tr.pre.Registers (fun r _ p => tr.pre.IdUnused r p) tr.act)
    (P := fun _ st => st.SendsOk) RoutingState.SendsOk.init
    (fun _ _ _ _ _ h hstep hguard => h.step hguard hstep) hrun hunused
  have hmapped := hst.mapped ref s hs
  simp only [RoutingState.handleCancelledNotification] at hn
  obtain ⟨p, hp, hn⟩ := Option.bind_eq_some_iff.mp hn
  obtain ⟨e, he, hn⟩ := Option.bind_eq_some_iff.mp hn
  obtain ⟨serverId, hserver, hn⟩ := Option.bind_eq_some_iff.mp hn
  obtain ⟨d, hd, hn⟩ := Option.bind_eq_some_iff.mp hn
  obtain ⟨client, hclient, hn⟩ := Option.bind_eq_some_iff.mp hn
  cases hn
  rw [hmapped.registered?_eq] at hp
  unfold RequestIdMapper.getMappingEntry at he
  unfold RequestIdMapper.getDownstreamRequestId at hd
  rw [he] at hd
  obtain ⟨r, req, hreq, hholds⟩ := hst.owned ref s p e hs he
  obtain ⟨c, hc, hsent⟩ := hst.sent ref s p e r req d hs he hd hreq hholds
  have hserverId : e.serverId = some serverId := (Option.filter_eq_some_iff.mp hserver).1
  refine ⟨r, req, hreq, hholds.session, ?_, ⟨hholds.pending, s, ?_, ?_⟩, ?_⟩
  · obtain ⟨e', he', hid⟩ := hmapped.entry_of_clientToProxy hp
    obtain rfl := Option.some.inj (he.symm.trans he')
    rw [← hid, hholds.originalRequestId]
  · rw [hholds.session]
    exact hs
  · rw [hholds.proxyRequestId, he]
    rfl
  · rw [hsent]
    constructor
    · intro hsame p' e' serverId' hp' he' hserver'
      obtain rfl := Option.some.inj (hp.symm.trans hp')
      obtain rfl := Option.some.inj (he.symm.trans he')
      obtain rfl := Option.some.inj (hserverId.symm.trans hserver')
      rw [hclient, hc]
      simp only [Option.some.injEq, Prod.mk.injEq] at hsame
      rw [hsame.1]
    · intro hkept
      have hsame := hkept p e serverId hp he hserverId
      rw [hclient, hc] at hsame
      rw [Option.some.inj hsame]

/-! ### A request of one session -/

theorem canonical_digit {d : Int} (hpos : 0 < d) (hlt : d < 10) :
    d % 10 ≠ 0 ∨ (d = 0 ∧ (0 : Int) = 0) := by
  omega

theorem canonical_one : (1 : Int) % 10 ≠ 0 ∨ ((1 : Int) = 0 ∧ (0 : Int) = 0) :=
  canonical_digit (by decide) (by decide)

theorem canonical_two : (2 : Int) % 10 ≠ 0 ∨ ((2 : Int) = 0 ∧ (0 : Int) = 0) :=
  canonical_digit (by decide) (by decide)

theorem canonical_four : (4 : Int) % 10 ≠ 0 ∨ ((4 : Int) = 0 ∧ (0 : Int) = 0) :=
  canonical_digit (by decide) (by decide)

/-- Two users' sessions. -/
def aliceRouted : SessionId := ⟨"alice", by decide, by decide⟩

def bobRouted : SessionId := ⟨"bob", by decide, by decide⟩

/-- Both sessions are open and share a server; the first one sends a request. -/
def sentOnce : List RoutingAction :=
  [.createSession 0 aliceRouted "u1", .createSession 1 bobRouted "u2", .connect 0 "files",
    .setConnection (.managed "files") (some 0),
    .register 0 0 (.num ⟨1, 0, canonical_one⟩) (some (.str "p")) (some "tools/call")
      (some "files") 7 7,
    .send 0 0 (.num ⟨4, 0, canonical_four⟩)]

/-- The run is about one request only. -/
theorem requestOf_sentOnce {tr : Transition RoutingState RoutingAction}
    (htr : tr ∈ trace RoutingState.step .init sentOnce) {r : Nat} (hr : r ≠ 0) :
    RoutingState.requestOf tr.act ≠ some r := by
  have hact := act_mem_of_mem_trace _ _ _ htr
  have hall : ∀ a ∈ sentOnce, RoutingState.requestOf a = none ∨
      RoutingState.requestOf a = some 0 := by
    simp [sentOnce, RoutingState.requestOf]
  intro hsome
  cases hall tr.act hact with
  | inl hnone =>
    rw [hnone] at hsome
    cases hsome
  | inr hzero =>
    rw [hzero] at hsome
    exact hr (Option.some.inj hsome).symm

theorem progress_reaches_owner_sentOnce :
    ∃ st, IsRun RoutingState.step .init (trace RoutingState.step .init sentOnce) st ∧
      st.handleProgressNotification (.str "alice:1:7") =
        some ⟨0, .str "p", .num ⟨1, 0, canonical_one⟩⟩ ∧
      ∃ r req, st.requests r = some req ∧ req.proxyRequestId = "alice:1:7" ∧
        st.Registered req ∧ req.progressToken = some (.str "p") := by
  obtain ⟨st, hst⟩ : ∃ st, exec RoutingState.step .init sentOnce = some st := ⟨_, rfl⟩
  have hrun := isRun_trace _ _ _ hst
  have hdelivered : st.handleProgressNotification (.str "alice:1:7") =
      some ⟨0, .str "p", .num ⟨1, 0, canonical_one⟩⟩ := by
    have hexec : (exec RoutingState.step .init sentOnce).bind
        (·.handleProgressNotification (.str "alice:1:7")) =
          some ⟨0, .str "p", .num ⟨1, 0, canonical_one⟩⟩ := by decide
    rw [hst] at hexec
    exact hexec
  have hids : ∀ tr ∈ trace RoutingState.step .init sentOnce, tr.post.IdsApart := by
    intro tr htr r r' req req' hreq hreq' _ _ _ _
    have honly : ∀ r req, tr.post.requests r = some req → r = 0 := by
      intro r req hreq
      by_contra hr
      rw [(RoutingState.requests_of_mem hrun (fun tr' htr' => requestOf_sentOnce htr' hr)
        htr).2] at hreq
      cases hreq
    rw [honly r req hreq, honly r' req' hreq']
  obtain ⟨r, req, hreq, htoken, _, hregistered, hprogress, _⟩ :=
    (progress_reaches_owner hrun hids).1 _ _ hdelivered
  exact ⟨st, hrun, hdelivered, r, req, hreq, (RequestId.str.inj htoken).symm, hregistered,
    hprogress⟩

theorem cancellation_names_request_sentOnce :
    ∃ st s n, IsRun RoutingState.step .init (trace RoutingState.step .init sentOnce) st ∧
      st.sessions 0 = some s ∧
      st.handleCancelledNotification s (.num ⟨1, 0, canonical_one⟩) = some n ∧
      ∃ r req, st.requests r = some req ∧ req.session = 0 ∧
        (req.sent = some (n.client, n.requestId) ↔
          st.ConnectionKept s (.num ⟨1, 0, canonical_one⟩)) := by
  obtain ⟨st, hst⟩ : ∃ st, exec RoutingState.step .init sentOnce = some st := ⟨_, rfl⟩
  have hrun := isRun_trace _ _ _ hst
  have hforwarded : ∃ s, st.sessions 0 = some s ∧
      st.handleCancelledNotification s (.num ⟨1, 0, canonical_one⟩) =
        some ⟨0, .num ⟨4, 0, canonical_four⟩, "alice:1:7"⟩ := by
    have hexec : (exec RoutingState.step .init sentOnce).bind (fun st =>
        (st.sessions 0).bind fun s =>
          st.handleCancelledNotification s (.num ⟨1, 0, canonical_one⟩)) =
        some ⟨0, .num ⟨4, 0, canonical_four⟩, "alice:1:7"⟩ := by decide
    rw [hst] at hexec
    exact Option.bind_eq_some_iff.mp hexec
  obtain ⟨s, hs, hn⟩ := hforwarded
  have hunused : ∀ tr ∈ trace RoutingState.step .init sentOnce,
      tr.pre.Registers (fun r _ p => tr.pre.IdUnused r p) tr.act := by
    intro tr htr
    have hunused : ∀ p, tr.pre.IdUnused 0 p := by
      intro p r' req' hreq' hr
      rw [(RoutingState.requests_of_mem hrun (fun tr' htr' => requestOf_sentOnce htr' hr)
        htr).1] at hreq'
      cases hreq'
    have hact := act_mem_of_mem_trace _ _ _ htr
    simp only [sentOnce, List.mem_cons, List.not_mem_nil, or_false] at hact
    rcases hact with hact | hact | hact | hact | hact | hact <;> rw [hact]
    · trivial
    · trivial
    · trivial
    · trivial
    · exact fun _ _ => hunused _
    · trivial
  obtain ⟨r, req, hreq, hsession, _, _, hiff⟩ :=
    cancellation_names_request_iff hrun hunused hs hn
  exact ⟨st, s, _, hrun, hs, hn, r, req, hreq, hsession, hiff⟩

/-- The server reconnects, and the other session's request gets the id that the first one's had on
    the old connection. -/
def sentAgain : List RoutingAction :=
  sentOnce ++ [.setConnection (.managed "files") none, .closeClient 0, .connect 1 "files",
    .setConnection (.managed "files") (some 1),
    .register 1 1 (.num ⟨2, 0, canonical_two⟩) none (some "tools/call") (some "files") 8 8,
    .send 1 1 (.num ⟨4, 0, canonical_four⟩)]

/-- The cancellation of the first session's request names the other session's. -/
theorem cancellation_names_other_request :
    ¬ ∀ (trs : List (Transition RoutingState RoutingAction)) (st : RoutingState),
      IsRun RoutingState.step .init trs st →
        ∀ ref s id n, st.sessions ref = some s → st.handleCancelledNotification s id = some n →
          ∃ r req, st.requests r = some req ∧ req.session = ref ∧ req.originalRequestId = id ∧
            req.sent = some (n.client, n.requestId) := by
  intro hall
  obtain ⟨st, hst⟩ : ∃ st, exec RoutingState.step .init sentAgain = some st := ⟨_, rfl⟩
  have hforwarded : ∃ s, st.sessions 0 = some s ∧
      st.handleCancelledNotification s (.num ⟨1, 0, canonical_one⟩) =
        some ⟨1, .num ⟨4, 0, canonical_four⟩, "alice:1:7"⟩ := by
    have hexec : (exec RoutingState.step .init sentAgain).bind (fun st =>
        (st.sessions 0).bind fun s =>
          st.handleCancelledNotification s (.num ⟨1, 0, canonical_one⟩)) =
        some ⟨1, .num ⟨4, 0, canonical_four⟩, "alice:1:7"⟩ := by decide
    rw [hst] at hexec
    exact Option.bind_eq_some_iff.mp hexec
  obtain ⟨s, hs, hn⟩ := hforwarded
  have hrun := isRun_trace _ _ _ hst
  obtain ⟨r, req, hreq, hsession, _, hsent⟩ := hall _ st hrun 0 s _ _ hs hn
  -- only the two requests of the run can be meant
  have hrequest : r = 0 ∨ r = 1 := by
    by_contra hr
    have hnone := RoutingState.requests_of_run hrun (r := r) (by
      intro tr htr hsome
      have hact := act_mem_of_mem_trace _ _ _ htr
      have hall : ∀ a ∈ sentAgain, RoutingState.requestOf a = none ∨
          RoutingState.requestOf a = some 0 ∨ RoutingState.requestOf a = some 1 := by
        simp [sentAgain, sentOnce, RoutingState.requestOf]
      have hact' := hall tr.act hact
      rw [hsome] at hact'
      simp at hact'
      exact hr hact')
    rw [hnone] at hreq
    cases hreq
  cases hrequest with
  | inl hr =>
    have hexec : (exec RoutingState.step .init sentAgain).bind (fun st =>
        (st.requests 0).bind (·.sent)) = some (0, .num ⟨4, 0, canonical_four⟩) := by decide
    rw [hr] at hreq
    simp [hst, hreq, hsent] at hexec
  | inr hr =>
    have hexec : (exec RoutingState.step .init sentAgain).bind (fun st =>
        (st.requests 1).map (·.session)) = some 1 := by decide
    rw [hr] at hreq
    simp [hst, hreq, hsession] at hexec

end PetaCore
