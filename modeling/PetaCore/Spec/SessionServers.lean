import PetaCore.Core.ProxySession
import PetaCore.Spec.ClientSession

/-!
# The servers that a session sees

`getAvailableServers` of a session goes through the contexts of all users and asks, for each of
them, whether the session can access a server of this id. The answer is about the session's own
context of the server, so that another user's context passes with it.

## Key results

- `sees_own_servers_iff`: a session sees no other user's context exactly when it can access no
  server for which another user has an available one
- `sees_server_of_other`: two users have configured the same server
- `shared_context_managed`: the contexts that two users share
-/

namespace PetaCore

open Run CapabilityState ClientSession

/-- The contexts without those of other users. -/
def ServerManager.withoutOthers (m : ServerManager CapabilityConfig) (userId : String) :
    ServerManager CapabilityConfig :=
  { m with temporaryServers := m.temporaryServers.filter fun c => c.userId == some userId }

/-- A session sees no temporary context of another user, and nothing that goes through the
    servers it sees depends on one. -/
structure SeesOwnServers (m : ServerManager CapabilityConfig) (s : ClientSession) : Prop where
  servers : ∀ c ∈ s.getAvailableServers m, c ∈ m.temporaryServers.values →
    c.userId = some s.userId
  capabilities : s.getServerCapabilities m = s.getServerCapabilities (m.withoutOthers s.userId)
  tools : s.listTools m = s.listTools (m.withoutOthers s.userId)
  resources : s.listResources m = s.listResources (m.withoutOthers s.userId)
  resourceTemplates :
    s.listResourceTemplates m = s.listResourceTemplates (m.withoutOthers s.userId)
  prompts : s.listPrompts m = s.listPrompts (m.withoutOthers s.userId)
  roots : ∀ connected, ProxySession.handleRootsListChanged m s connected =
    ProxySession.handleRootsListChanged (m.withoutOthers s.userId) s connected

/-- Where another user has an available context of a server, the session's own context of the
    server, if it has one, is not accessible to it. -/
def NoSharedServer (m : ServerManager CapabilityConfig) (s : ClientSession) : Prop :=
  ∀ c ∈ m.temporaryServers.values, c.isAvailable = true → c.userId ≠ some s.userId →
    ∀ own, m.getServerContext c.serverID (some s.userId) = some own →
      s.canAccessServerContext c.serverID own = false

section

variable {m : ServerManager CapabilityConfig} {s : ClientSession} {nextId : Nat}

theorem NoSharedServer.canAccessServer (h : NoSharedServer m s)
    {c : ServerContext CapabilityConfig} (hc : c ∈ m.temporaryServers.values)
    (havailable : c.isAvailable = true) (hother : c.userId ≠ some s.userId) :
    s.canAccessServer m c.serverID = false := by
  cases hown : m.getServerContext c.serverID (some s.userId) with
  | none =>
    unfold ClientSession.canAccessServer
    rw [hown]
  | some own =>
    rw [canAccessServer_of_context hown]
    exact h c hc havailable hother own hown

/-- A session finds its own context of a server also without those of others. -/
theorem getServerContext_withoutOthers (hm : ContextsOk m nextId) {u : UserId}
    (hu : s.userId = u.value) (serverID : String) :
    (m.withoutOthers s.userId).getServerContext serverID (some s.userId) =
      m.getServerContext serverID (some s.userId) := by
  have htemporary : (m.withoutOthers s.userId).getTemporaryServer serverID s.userId =
      m.getTemporaryServer serverID s.userId := by
    unfold ServerManager.getTemporaryServer ServerManager.withoutOthers
    simp only [Dict.get?_filter]
    cases hc : m.temporaryServers.get? (internalKey serverID s.userId) with
    | none => rfl
    | some c =>
      -- the key determines the user
      rw [hu] at hc
      obtain ⟨u', hu', hkey⟩ := hm.placed (false, internalKey serverID u.value) c hc
      obtain rfl := internalKey_userId hkey
      exact Option.filter_some_pos (by simp [hu', hu])
  unfold ServerManager.getServerContext
  dsimp only
  rw [htemporary]
  rfl

theorem canAccessServer_withoutOthers (hm : ContextsOk m nextId) {u : UserId}
    (hu : s.userId = u.value) (serverID : String) :
    s.canAccessServer (m.withoutOthers s.userId) serverID = s.canAccessServer m serverID := by
  unfold ClientSession.canAccessServer
  rw [getServerContext_withoutOthers hm hu]

/-- Without a shared server the contexts of others make no difference. -/
theorem NoSharedServer.getAvailableServers (h : NoSharedServer m s) (hm : ContextsOk m nextId)
    {u : UserId} (hu : s.userId = u.value) :
    s.getAvailableServers m = s.getAvailableServers (m.withoutOthers s.userId) := by
  unfold ClientSession.getAvailableServers ServerManager.getAvailableServers
  rw [List.filter_append, List.filter_append]
  simp only [canAccessServer_withoutOthers hm hu]
  congr 1
  unfold ServerManager.getAvailableServersFromTemporaryServers ServerManager.withoutOthers
  rw [Dict.values_filter, List.filter_filter, List.filter_filter, List.filter_filter]
  refine List.filter_congr ?_
  intro c hc
  by_cases hown : c.userId = some s.userId
  · simp [hown]
  · cases havailable : c.isAvailable with
    | false => simp
    | true =>
      have hdenied := h.canAccessServer hc havailable hown
      simp [hdenied]

end

/-- In every state that is reached, a session sees no other user's server exactly when it can
    access no server for which another user has an available context. -/
theorem sees_own_servers_iff {trs : List (Transition CapabilityState CapabilityAction)}
    {st : CapabilityState} (hrun : IsRun CapabilityState.step CapabilityState.init trs st)
    (u : UserId) (s : ClientSession) (hu : s.userId = u.value) :
    SeesOwnServers st.view s ↔ NoSharedServer st.view s := by
  constructor
  · intro h c hc havailable hother own hown
    cases haccess : s.canAccessServerContext c.serverID own with
    | false => rfl
    | true =>
      have hmem : c ∈ s.getAvailableServers st.view := by
        unfold ClientSession.getAvailableServers ServerManager.getAvailableServers
        refine List.mem_filter.mpr ⟨?_, by rw [canAccessServer_of_context hown]; exact haccess⟩
        exact List.mem_append_right _ (List.mem_filter.mpr ⟨hc, havailable⟩)
      exact absurd (h.servers c hmem hc) hother
  · intro h
    have hservers := h.getAvailableServers (contextsOk_of_run hrun) hu
    refine ⟨?_, ?_, ?_, ?_, ?_, ?_, ?_⟩
    · intro c hc htemporary
      obtain ⟨hmem, haccess⟩ := List.mem_filter.mp hc
      by_cases hown : c.userId = some s.userId
      · exact hown
      · unfold ServerManager.getAvailableServers at hmem
        have havailable : c.isAvailable = true := by
          cases List.mem_append.mp hmem with
          | inl hmem => exact (List.mem_filter.mp hmem).2
          | inr hmem => exact (List.mem_filter.mp hmem).2
        rw [h.canAccessServer htemporary havailable hown] at haccess
        cases haccess
    · unfold getServerCapabilities
      rw [hservers]
    · unfold listTools
      rw [hservers]
    · unfold listResources
      rw [hservers]
    · unfold listResourceTemplates
      rw [hservers]
    · unfold listPrompts
      rw [hservers]
    · intro connected
      unfold ProxySession.handleRootsListChanged
      rw [hservers]

/-! ### Users of a server with user input -/

/-- A public server that every user configures. -/
def notesServer : Server where
  serverId := "notes"
  serverName := "Notes"
  enabled := true
  capabilities := .empty
  allowUserInput := true
  configTemplate := none
  authType := 1
  category := 1
  publicAccess := true
  anonymousAccess := false
  cached := .none

/-- These users configure the server, and their contexts connect. -/
def configureNotes (users : List UserId) : List CapabilityAction :=
  .saveServer notesServer :: users.flatMap fun userId =>
    [.createUser userId .empty, .initializeTemporaryServerContext "notes" userId,
      .refresh "notes" (some userId) .online none .none]

def aliceSession : ClientSession := ⟨false, alice.value, .empty, .empty⟩

/-- Whether the session has no context of its own of any server that others have one of. -/
def hasNoneOf (m : ServerManager CapabilityConfig) (s : ClientSession) : Bool :=
  m.temporaryServers.values.all fun c =>
    c.userId == some s.userId || (m.getServerContext c.serverID (some s.userId)).isNone

theorem noSharedServer_of_hasNoneOf {m : ServerManager CapabilityConfig} {s : ClientSession}
    (h : hasNoneOf m s = true) : NoSharedServer m s := by
  intro c hc _ hother own hown
  have hcheck := List.all_eq_true.mp h c hc
  rw [hown] at hcheck
  simp [hother] at hcheck

theorem sees_own_servers_bobOnly :
    ∃ st, exec CapabilityState.step CapabilityState.init (configureNotes [bob]) = some st ∧
      st.view.getAvailableServers.map (·.userId) = [some bob.value] ∧
      SeesOwnServers st.view aliceSession := by
  have hobs : (exec CapabilityState.step CapabilityState.init (configureNotes [bob])).map
      (fun st => (st.view.getAvailableServers.map (·.userId), hasNoneOf st.view aliceSession)) =
      some ([some bob.value], true) := by
    decide +kernel
  obtain ⟨st, hst, hobs⟩ := Option.map_eq_some_iff.mp hobs
  obtain ⟨husers, hnone⟩ := Prod.mk.inj hobs
  exact ⟨st, hst, husers, (sees_own_servers_iff (isRun_trace _ _ _ hst) alice aliceSession rfl).mpr
    (noSharedServer_of_hasNoneOf hnone)⟩

/-- Both users have configured the server. The session of the first sees the context of the
    second, and tells its connection about changed roots. -/
theorem sees_server_of_other :
    (¬ ∀ (trs : List (Transition CapabilityState CapabilityAction)) (st : CapabilityState),
      IsRun CapabilityState.step CapabilityState.init trs st →
      ∀ (u : UserId) (s : ClientSession), s.userId = u.value → SeesOwnServers st.view s) ∧
    (exec CapabilityState.step CapabilityState.init (configureNotes [alice, bob])).map (fun st =>
      (ProxySession.handleRootsListChanged st.view aliceSession fun _ => true).map (·.userId)) =
      some [some alice.value, some bob.value] := by
  have hobs : (exec CapabilityState.step CapabilityState.init (configureNotes [alice, bob])).map
      (fun st => (ProxySession.handleRootsListChanged st.view aliceSession fun _ => true).map
        (·.userId)) = some [some alice.value, some bob.value] := by
    decide +kernel
  refine ⟨?_, hobs⟩
  intro hall
  obtain ⟨st, hst, hroots⟩ := Option.map_eq_some_iff.mp hobs
  have hsees := hall _ st (isRun_trace _ _ _ hst) alice aliceSession rfl
  -- without the context of the second user its connection is not told
  have hown : (exec CapabilityState.step CapabilityState.init (configureNotes [alice, bob])).map
      (fun st => (ProxySession.handleRootsListChanged (st.view.withoutOthers aliceSession.userId)
        aliceSession fun _ => true).map (·.userId)) = some [some alice.value] := by
    decide +kernel
  rw [hst, Option.map_some, ← hsees.roots] at hown
  rw [hroots] at hown
  exact absurd hown (by decide)

/-! ## The contexts that requests are sent to -/

/-- In every state that is reached, sessions whose requests go to the context with one id go to the
    same server, and unless it is managed they are sessions of one user. -/
theorem shared_context_managed {trs : List (Transition CapabilityState CapabilityAction)}
    {st : CapabilityState} (hrun : IsRun CapabilityState.step CapabilityState.init trs st)
    (s s' : ClientSession) (hs : s.HasUser st.view) (hs' : s'.HasUser st.view)
    {serverID serverID' : String} {c c' : ServerContext CapabilityConfig}
    (hc : st.view.getServerContext serverID (some s.userId) = some c)
    (hc' : st.view.getServerContext serverID' (some s'.userId) = some c') (hid : c.id = c'.id) :
    c = c' ∧ serverID = serverID' ∧ (c.userId = none ∨ s.userId = s'.userId) := by
  have hok := contextsOk_of_run hrun
  obtain ⟨hserver, l, hl, hown⟩ := hok.ownContext hs hc
  obtain ⟨hserver', l', hl', hown'⟩ := hok.ownContext hs' hc'
  obtain rfl := hok.distinct l l' c c' hl hl' hid
  obtain rfl := Option.some.inj (hl.symm.trans hl')
  refine ⟨rfl, hserver.symm.trans hserver', ?_⟩
  obtain ⟨managed, key⟩ := l
  cases managed with
  | true => exact .inl (hok.placed _ c hl).2
  | false =>
    have huser := hown.resolve_left Bool.false_ne_true
    exact .inr (Option.some.inj (huser.symm.trans (hown'.resolve_left Bool.false_ne_true)))

theorem shared_context_managed_files : ∃ st c, exec CapabilityState.step CapabilityState.init
    [.saveServer filesServer, .initializeManagedServerContext "files"] = some st ∧
      st.view.getServerContext "files" (some alice.value) = some c ∧ c.userId = none := by
  have hobs : (exec CapabilityState.step CapabilityState.init
      [.saveServer filesServer, .initializeManagedServerContext "files"]).map (fun st =>
        [alice, bob].map fun u => (st.view.getServerContext "files" (some u.value)).map (·.id)) =
      some [some "1", some "1"] := by
    decide +kernel
  obtain ⟨st, hst, hobs⟩ := Option.map_eq_some_iff.mp hobs
  obtain ⟨c, hc, hid⟩ := Option.map_eq_some_iff.mp (List.cons.inj hobs).1
  obtain ⟨c', hc', hid'⟩ := Option.map_eq_some_iff.mp (List.cons.inj (List.cons.inj hobs).2).1
  obtain ⟨_, _, hmanaged⟩ := shared_context_managed (isRun_trace _ _ _ hst) aliceSession
    ⟨false, bob.value, .empty, .empty⟩ (.inl ⟨alice, rfl⟩) (.inl ⟨bob, rfl⟩) hc hc'
    (hid.trans hid'.symm)
  exact ⟨st, c, hst, hc, hmanaged.resolve_right (by decide)⟩

end PetaCore
