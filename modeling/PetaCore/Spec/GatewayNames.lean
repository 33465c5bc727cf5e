import PetaCore.Spec.SessionServers

/-!
# Gateway names

The name under which the gateway offers an item of a server ends in the id of a context. Parsing it
finds that very context, whatever the item is called, and for no text a temporary context of
another user.

Key results:
- `parsedContext_generateNewName`: a name leads to the context it was made for
- `own_of_parsedContext`: what a session's names lead to is managed or the user's
- `getServerContext_of_own`: the server id that is parsed is resolved to a context of that server
-/

namespace PetaCore

open Run CapabilityState ClientSession

namespace ClientSession

/-- The context that `parseName` finds. -/
def parsedContext (m : ServerManager CapabilityConfig) (s : ClientSession) (name : String) :
    Option (ServerContext CapabilityConfig) :=
  match splitLast name.toList with
  | none => none
  | some (_, after) =>
    (m.getServerContextByID (String.ofList after)).or
      (m.getTemporaryServerContextByID (String.ofList after) s.userId)

theorem parsedContext_of_parseName {m : ServerManager CapabilityConfig} {s : ClientSession}
    {name : String} {route : GatewayRoute} (h : s.parseName m name = some route) :
    ∃ c, s.parsedContext m name = some c ∧ route.serverID = c.serverID := by
  unfold parseName at h
  unfold parsedContext
  cases hsplit : splitLast name.toList with
  | none => simp [hsplit] at h
  | some parts =>
    simp only [hsplit] at h ⊢
    split at h
    · cases h
    · rename_i c hc
      cases h
      exact ⟨c, hc, rfl⟩

end ClientSession

/-- A context that is managed or belongs to the user of a session. -/
def SeenBy (m : ServerManager CapabilityConfig) (s : ClientSession)
    (c : ServerContext CapabilityConfig) : Prop :=
  ∃ l, contextAt m l = some c ∧ (l.1 = true ∨ c.userId = some s.userId)

namespace ContextsOk

variable {m : ServerManager CapabilityConfig} {nextId : Nat}

variable {c : ServerContext CapabilityConfig}

/-- Two contexts with one id are the same context. -/
theorem eq_of_id (h : ContextsOk m nextId) {l l' : Bool × String}
    {c' : ServerContext CapabilityConfig} (hc : contextAt m l = some c)
    (hc' : contextAt m l' = some c') (hid : c.id = c'.id) : c = c' := by
  have hl := h.distinct l l' c c' hc hc' hid
  rw [hl, hc'] at hc
  exact (Option.some.inj hc).symm

variable {s : ClientSession}

theorem own_of_parsedContext {name : String} (hc : s.parsedContext m name = some c) : SeenBy m s c := by
  unfold parsedContext at hc
  split at hc
  · cases hc
  · rename_i after _
    cases hmanaged : m.getServerContextByID (String.ofList after) with
    | some c' =>
      rw [hmanaged] at hc
      cases hc
      obtain ⟨key, hkey⟩ := Dict.mem_values (List.mem_of_find?_eq_some hmanaged)
      exact ⟨(true, key), hkey, Or.inl rfl⟩
    | none =>
      rw [hmanaged, Option.none_or] at hc
      obtain ⟨key, hkey⟩ := Dict.mem_values (List.mem_of_find?_eq_some hc)
      have hfound := List.find?_some hc
      simp only [Bool.and_eq_true, beq_iff_eq] at hfound
      exact ⟨(false, key), hkey, Or.inr hfound.2⟩

/-- A name leads to the context it was made for. -/
theorem parsedContext_generateNewName (h : ContextsOk m nextId)
    (hown : SeenBy m s c) (name : String) :
    s.parsedContext m (generateNewName c.id name) = some c := by
  obtain ⟨l, hl, huser⟩ := hown
  obtain ⟨c', hc', _⟩ := parsedContext_of_parseName (h.parseName_generateNewName hl huser name)
  obtain ⟨l', hl', _⟩ := own_of_parsedContext hc'
  have hid : c'.id = c.id := by
    unfold parsedContext at hc'
    rw [h.splitLast_generateNewName hl] at hc'
    simp only [String.ofList_toList] at hc'
    obtain hfind | ⟨_, hfind⟩ := Option.or_eq_some_iff.mp hc'
    · have hfound := List.find?_some hfind
      exact eq_of_beq hfound
    · have hfound := List.find?_some hfind
      simp only [Bool.and_eq_true, beq_iff_eq] at hfound
      exact hfound.1
  rw [hc', h.eq_of_id hl' hl hid]

/-- The server of a context that a session sees is resolved to that context, or to the managed
context of the same server when there is one. -/
theorem getServerContext_of_own (h : ContextsOk m nextId)
    (hid : s.userId ≠ "") (hown : SeenBy m s c) :
    ∃ c', m.getServerContext c.serverID (some s.userId) = some c' ∧ c'.serverID = c.serverID ∧
      (c' = c ∨ m.serverContexts.get? c.serverID = some c') := by
  obtain ⟨⟨b, key⟩, hl, huser⟩ := hown
  unfold ServerManager.getServerContext
  cases hmanaged : m.serverContexts.get? c.serverID with
  | some c' =>
    have hplaced : PlacedAt c' (true, c.serverID) := h.placed _ c' hmanaged
    exact ⟨c', rfl, hplaced.1, Or.inr rfl⟩
  | none =>
    cases b with
    | true =>
      have hplaced : PlacedAt c (true, key) := h.placed _ c hl
      have hget : m.serverContexts.get? key = some c := hl
      rw [← hplaced.1, hmanaged] at hget
      cases hget
    | false =>
      obtain ⟨u, hu, hkey⟩ : PlacedAt c (false, key) := h.placed _ c hl
      have hsession : c.userId = some s.userId := by
        cases huser with
        | inl hmanaged => cases hmanaged
        | inr huser => exact huser
      have hvalue : u.value = s.userId := Option.some.inj (hu.symm.trans hsession)
      have hget : m.getTemporaryServer c.serverID s.userId = some c := by
        rw [ServerManager.getTemporaryServer, ← hvalue, ← hkey]
        exact hl
      exact ⟨c, by simp [hid, hget], rfl, Or.inl rfl⟩

end ContextsOk

/-- In every state that is reached, for every session of a user: the name made for an item of a
managed context or of one of the user's own, whatever the item is called, is parsed to the
context's server and the item, by way of that context, and its server id is resolved to a context
of that server. No text at all leads to a temporary context of another user. -/
theorem gateway_names_decode {trs : List (Transition CapabilityState CapabilityAction)}
    {st : CapabilityState} (hrun : IsRun CapabilityState.step CapabilityState.init trs st)
    (s : ClientSession) (hid : s.userId ≠ "") :
    (∀ c, SeenBy st.view s c → ∀ name : String,
      s.parseName st.view (generateNewName c.id name) = some ⟨c.serverID, name⟩ ∧
        s.parsedContext st.view (generateNewName c.id name) = some c ∧
        ∃ c', st.view.getServerContext c.serverID (some s.userId) = some c' ∧
          c'.serverID = c.serverID ∧
          (c' = c ∨ st.view.serverContexts.get? c.serverID = some c')) ∧
      ∀ name route, s.parseName st.view name = some route →
        ∃ c, s.parsedContext st.view name = some c ∧ route.serverID = c.serverID ∧
          SeenBy st.view s c := by
  have hm := contextsOk_of_run hrun
  constructor
  · intro c hown name
    have hroute : s.parseName st.view (generateNewName c.id name) = some ⟨c.serverID, name⟩ := by
      obtain ⟨l, hl, huser⟩ := hown
      exact hm.parseName_generateNewName hl huser name
    exact ⟨hroute, hm.parsedContext_generateNewName hown name, hm.getServerContext_of_own hid hown⟩
  · intro name route hroute
    obtain ⟨c, hc, hserver⟩ := parsedContext_of_parseName hroute
    exact ⟨c, hc, hserver, ContextsOk.own_of_parsedContext hc⟩

/-- Two users have configured the server: each one's names lead to the context of its own. -/
theorem gateway_names_decode_configureNotes :
    ∃ st c, exec CapabilityState.step CapabilityState.init (configureNotes [alice, bob]) = some st ∧
      c.userId = some alice.value ∧
      aliceSession.parseName st.view (generateNewName c.id "a_-_2") = some ⟨"notes", "a_-_2"⟩ ∧
      aliceSession.parsedContext st.view (generateNewName c.id "a_-_2") = some c := by
  have hobs : (exec CapabilityState.step CapabilityState.init (configureNotes [alice, bob])).map
      (fun st => (contextAt st.view (false, internalKey "notes" alice.value)).map fun c =>
        (c.serverID, c.userId)) = some (some ("notes", some alice.value)) := by
    decide +kernel
  obtain ⟨st, hst, hobs⟩ := Option.map_eq_some_iff.mp hobs
  obtain ⟨c, hc, hobs⟩ := Option.map_eq_some_iff.mp hobs
  obtain ⟨hserver, huser⟩ := Prod.mk.inj hobs
  have h := gateway_names_decode (isRun_trace _ _ _ hst) aliceSession (by decide)
  obtain ⟨hparse, hcontext, _⟩ := h.1 c ⟨_, hc, Or.inr huser⟩ "a_-_2"
  exact ⟨st, c, hst, huser, hserver ▸ hparse, hcontext⟩

end PetaCore
