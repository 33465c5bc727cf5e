import PetaCore.Core.ClientSession
import PetaCore.ForStd.Noninterference
import PetaCore.Spec.CapabilitySystem

/-!
# Reading capabilities and other users

Where the list of a kind of capabilities is not loaded, `getMcpCapabilities` gives out the
objects of the context's configuration, and the loops that write permissions and preferences
into the view write to them. The contexts of managed servers are shared by all users.

## Key results

- `capability_reads_isolated`: while no read writes to a managed configuration, reads leave
  all of them as they are, and nothing that other users have or do is seen by a user
- `capability_read_leaks`: otherwise a user's permission switches a tool off for others
-/

namespace PetaCore

open Run Noninterference

namespace CapabilityState

variable {userId : UserId} {s t : CapabilityState}

/-! ## What a read leaves in the contexts -/

/-- A context, at a location, after the view of a user was built. -/
def writeBackContext (userId : String) (user : User) (servers : Dict Server) (l : Bool × String)
    (c : ServerContext CapabilityConfig) : ServerContext CapabilityConfig :=
  match servers.values.find? fun server => server.enabled && viewLocation userId server == l with
  | none => c
  | some server =>
    { c with capabilitiesConfig :=
        ⟨c.capabilitiesConfig.tools.mapKeyed (writeBack user server (c.lists.isLoaded .tool) .tool),
          c.capabilitiesConfig.resources.mapKeyed
            (writeBack user server (c.lists.isLoaded .resource) .resource),
          c.capabilitiesConfig.prompts.mapKeyed
            (writeBack user server (c.lists.isLoaded .prompt) .prompt)⟩ }

variable {user : User}

theorem contextAt_getUserCapabilities {s : CapabilityState} (hs : s.Ok) {userId : String}
    (hu : s.users.get? userId = some user) (l : Bool × String) :
    contextAt (s.getUserCapabilities userId).1.view l =
      (contextAt s.view l).map (writeBackContext userId user s.servers l) := by
  have hmanager : (s.getUserCapabilities userId).1.manager = s.manager := by
    rw [getUserCapabilities_fst]
  rw [view, view, hmanager, contextAt_map, contextAt_map]
  cases hc : contextAt s.manager l with
  | none => rfl
  | some c =>
    simp only [Option.map_some, Option.some.injEq, writeBackContext]
    split
    · -- no server of the view is taken from here
      rename_i hnone
      simp only [ServerContext.map]
      congr 1
      refine ServerConfigCapabilities.map_congr ?_
      intro kind name r hr
      refine (getUserCapabilities_spec hs hu).2.1 r (hs.configs.holds l c hc kind name r hr) ?_
      have hnot : ∀ server ∈ s.servers.values, server.enabled = true → ∀ kind' name',
          ¬GivesOut s.manager userId server kind' name' r := by
        rintro server hserver henabled kind' name' ⟨c', hc', hout⟩
        rw [viewContext_eq] at hc'
        have hloc := (hs.configs.separate _ c' l c kind' name' kind name r hc' hc hout.2 hr).1
        have hfind := List.find?_eq_none.mp hnone server hserver
        simp [henabled, hloc] at hfind
      rintro ⟨server, hserver, henabled, ⟨kind', name', _, _, hout, _⟩ | ⟨kind', name', _, hout, _⟩⟩
      · exact hnot server hserver henabled kind' name' hout
      · exact hnot server hserver henabled kind' name' hout
    · rename_i server hfind
      have hserver := List.mem_of_find?_eq_some hfind
      have hprop := List.find?_some hfind
      simp only [Bool.and_eq_true, beq_iff_eq] at hprop
      obtain ⟨henabled, hloc⟩ := hprop
      have hcontext : viewContext s.manager userId server = some c := by
        rw [viewContext_eq, hloc]
        exact hc
      have hread : ∀ kind, (c.capabilitiesConfig.get kind).map
          (s.getUserCapabilities userId).1.heap.read =
          ((c.capabilitiesConfig.get kind).map s.heap.read).mapKeyed
            (writeBack user server (c.lists.isLoaded kind) kind) := by
        intro kind
        rw [Dict.mapKeyed_map]
        exact Dict.mapKeyed_congr fun name r hr =>
          read_getUserCapabilities hs hu hserver henabled hcontext hr
      simp only [ServerContext.map]
      congr 1
      refine ServerConfigCapabilities.ext_get ?_
      intro kind
      rw [ServerConfigCapabilities.get_map, hread]
      cases kind <;> rfl

/-! ## Writes to shared configurations -/

/-- The user's permissions or preferences override this item of a server's view. -/
def Overrides (user : User) (server : Server) (kind : CapabilityKind) (name : String) : Prop :=
  (∃ perms o, user.permissions.get? server.serverId = some perms ∧
    (perms.get kind).get? name = some o ∧ o.enabled.isSome) ∨
  (serverEnabled user server = true ∧
    ∃ prefs, (user.userPreferences.getD .empty).get? server.serverId = some prefs ∧
      ((prefs.get kind).get? name).isSome)

/-- The user overrides an item of a managed server whose list for this kind is not loaded,
    so that the item's entry in the view is the object of the configuration itself. -/
def WritesShared (s : CapabilityState) (user : User) : Prop :=
  ∃ server ∈ s.servers.values, server.enabled = true ∧ server.allowUserInput = false ∧
    ∃ c, s.view.serverContexts.get? server.serverId = some c ∧
      ∃ kind name v, c.lists.isLoaded kind = false ∧
        (c.capabilitiesConfig.get kind).get? name = some v ∧ v.enabled ≠ some false ∧
        Overrides user server kind name

/-- The operation is by a user for whom nothing shared is written. -/
def ReadsOnly (s : CapabilityState) (r : CapabilityRead) : Prop :=
  ∀ user, s.users.get? r.userId.value = some user → ¬WritesShared s user

theorem writeBack_eq_self {server : Server} {loaded : Bool}
    {kind : CapabilityKind} {name : String} {v : CapabilityConfig}
    (h : loaded = false → v.enabled ≠ some false → ¬Overrides user server kind name) :
    writeBack user server loaded kind name v = v := by
  simp only [writeBack]
  split
  · rfl
  · rename_i hskip
    obtain ⟨hload, hon⟩ := not_or.mp hskip
    have hnot := h (by simpa using hload) hon
    have hpermitted : permitted user server.serverId kind name v = v := by
      simp only [permitted]
      cases hperms : user.permissions.get? server.serverId with
      | none => rfl
      | some perms =>
        simp only [ServerConfigCapabilities.overrideValue]
        cases ho : (perms.get kind).get? name with
        | none => rfl
        | some o =>
          have hbool : ¬o.enabled.isSome = true := by
            intro hsome
            exact hnot (Or.inl ⟨perms, o, hperms, ho, hsome⟩)
          simp only [Option.bind_some, permissionOverride, if_neg hbool, Option.getD_none, id]
    rw [hpermitted]
    split
    · rename_i hshow
      simp only [preferred]
      cases hprefs : (user.userPreferences.getD .empty).get? server.serverId with
      | none => rfl
      | some prefs =>
        simp only [ServerConfigCapabilities.overrideValue]
        cases ho : (prefs.get kind).get? name with
        | none => rfl
        | some o =>
          refine absurd (Or.inr ⟨hshow.1, prefs, hprefs, ?_⟩) hnot
          rw [ho]
          rfl
    · rfl

/-- A managed context after a read that writes to nothing shared. -/
theorem writeBackContext_managed {s : CapabilityState} {userId : String}
    (hshared : ¬WritesShared s user) {serverId : String} {c : ServerContext CapabilityConfig}
    (hc : s.view.serverContexts.get? serverId = some c) :
    writeBackContext userId user s.servers (true, serverId) c = c := by
  simp only [writeBackContext]
  split
  · rfl
  · rename_i server hfind
    have hprop := List.find?_some hfind
    simp only [Bool.and_eq_true, beq_iff_eq] at hprop
    obtain ⟨henabled, hloc⟩ := hprop
    have hrow : server.allowUserInput = false ∧ server.serverId = serverId := by
      simp only [viewLocation] at hloc
      split at hloc
      · cases (Prod.mk.inj hloc).1
      · rename_i hinput
        exact ⟨by simpa using hinput, (Prod.mk.inj hloc).2⟩
    obtain ⟨hinput, rfl⟩ := hrow
    have hsame : ∀ kind, (c.capabilitiesConfig.get kind).mapKeyed
        (writeBack user server (c.lists.isLoaded kind) kind) = c.capabilitiesConfig.get kind := by
      intro kind
      apply Dict.mapKeyed_eq_self
      intro name v hv
      apply writeBack_eq_self
      intro hload hon hover
      exact hshared ⟨server, List.mem_of_find?_eq_some hfind, henabled, hinput, c, hc, kind, name,
        v, hload, hv, hon, hover⟩
    have htool := hsame .tool
    have hresource := hsame .resource
    have hprompt := hsame .prompt
    simp only [ServerConfigCapabilities.get] at htool hresource hprompt
    rw [htool, hresource, hprompt]

/-! ## What a user can see -/

/-- Two states are the same for a user: the servers, the managed contexts, the user's own
    temporary contexts and the user's row. -/
structure SameFor (userId : UserId) (s t : CapabilityState) : Prop where
  servers : s.servers = t.servers
  managed : ∀ serverId, s.view.serverContexts.get? serverId = t.view.serverContexts.get? serverId
  temporary : ∀ serverId, s.view.getTemporaryServer serverId userId.value =
    t.view.getTemporaryServer serverId userId.value
  user : s.users.get? userId.value = t.users.get? userId.value

theorem SameFor.symm (h : SameFor userId s t) :
    SameFor userId t s where
  servers := h.servers.symm
  managed := fun serverId => (h.managed serverId).symm
  temporary := fun serverId => (h.temporary serverId).symm
  user := h.user.symm

theorem SameFor.getServerContext (h : SameFor userId s t) (serverID : String) :
    s.view.getServerContext serverID (some userId.value) =
      t.view.getServerContext serverID (some userId.value) := by
  simp only [ServerManager.getServerContext, h.managed, h.temporary]

/-- The checks of the user's sessions give the same. -/
theorem SameFor.canAccessServerCapabilities (h : SameFor userId s t) (session : ClientSession)
    (hsession : session.userId = userId.value) (serverID : String) (type : CapabilityKind)
    (name : String) :
    session.canAccessServerCapabilities s.view serverID type name =
      session.canAccessServerCapabilities t.view serverID type name := by
  simp only [ClientSession.canAccessServerCapabilities, ClientSession.canAccessServer, hsession,
    h.getServerContext]

/-- The user's view is the same. -/
theorem SameFor.userView (hs : s.Ok) (ht : t.Ok) (h : SameFor userId s t) :
    s.userView userId.value = t.userView userId.value := by
  have hcontext : ∀ server, viewContext s.view userId.value server =
      viewContext t.view userId.value server := by
    intro server
    rw [viewContext, viewContext, h.temporary]
    simp only [ServerManager.getServerContext, h.managed]
  cases hu : s.users.get? userId.value with
  | none =>
    have hu' := h.user.symm.trans hu
    simp only [CapabilityState.userView, getUserCapabilities, hu, hu']
    rfl
  | some user =>
    have hu' := h.user.symm.trans hu
    rw [(getUserCapabilities_spec hs hu).2.2, (getUserCapabilities_spec ht hu').2.2]
    simp only [viewUser, h.servers, hcontext]

/-- The id of a user has no colon, so the key of a temporary context determines the user. -/
theorem internalKey_userId {serverId serverId' : String} {userId userId' : UserId}
    (h : internalKey serverId userId.value = internalKey serverId' userId'.value) :
    userId = userId' := by
  have hcolon : ∀ userId : UserId, ':' ∉ userId.value.toList := by
    intro userId hmem
    have hhex := userId.hex ':' hmem
    revert hhex
    decide
  have hlist := congrArg String.toList h
  simp only [internalKey, String.toList_append, List.append_assoc] at hlist
  have hvalue : userId.value.toList = userId'.value.toList := by
    cases List.append_eq_append_iff.mp hlist with
    | inl hsplit =>
      obtain ⟨as, _, hrest⟩ := hsplit
      cases as with
      | nil => exact (List.cons.inj hrest).2
      | cons a as =>
        -- the other colon would lie in the user id
        have htail : userId.value.toList = as ++ ':' :: userId'.value.toList :=
          (List.cons.inj hrest).2
        exact absurd (by rw [htail]; simp) (hcolon userId)
    | inr hsplit =>
      obtain ⟨as, _, hrest⟩ := hsplit
      cases as with
      | nil => exact (List.cons.inj hrest).2.symm
      | cons a as =>
        have htail : userId'.value.toList = as ++ ':' :: userId.value.toList :=
          (List.cons.inj hrest).2
        exact absurd (by rw [htail]; simp) (hcolon userId')
  obtain ⟨value, hex⟩ := userId
  obtain ⟨value', hex'⟩ := userId'
  obtain rfl : value = value' := String.toList_inj.mp hvalue
  rfl

/-! ## Operations of users -/

/-- The contexts after an operation are those after building the view. -/
theorem contextAt_runRead (s : CapabilityState) (r : CapabilityRead) (l : Bool × String) :
    contextAt (s.runRead r).view l =
      contextAt (s.getUserCapabilities r.userId.value).1.view l := by
  have hview : (s.getUserCapabilities r.userId.value).1.view =
      s.manager.map (s.getUserCapabilities r.userId.value).1.heap.read := by
    rw [getUserCapabilities_fst]
    rfl
  rw [hview]
  cases runRead_cases s r with
  | inl h =>
    rw [h]
    rfl
  | inr h =>
    obtain ⟨_, _, _, _, _, _, h⟩ := h
    rw [h]
    rfl

theorem servers_runRead (s : CapabilityState) (r : CapabilityRead) :
    (s.runRead r).servers = s.servers := by
  cases runRead_cases s r with
  | inl h => rw [h]
  | inr h =>
    obtain ⟨_, _, _, _, _, _, h⟩ := h
    rw [h]

/-- The rows of other users are left alone. -/
theorem users_runRead_ne (s : CapabilityState) (r : CapabilityRead) (hne : r.userId ≠ userId) :
    (s.runRead r).users.get? userId.value = s.users.get? userId.value := by
  have hvalue : userId.value ≠ r.userId.value := by
    intro heq
    obtain ⟨value, hex⟩ := userId
    apply hne
    cases hr : r.userId with
    | mk value' hex' =>
      rw [hr] at heq
      subst heq
      rfl
  cases runRead_cases s r with
  | inl h => rw [h]
  | inr h =>
    obtain ⟨_, _, _, _, _, _, h⟩ := h
    rw [h]
    exact Dict.get?_set_ne s.users _ hvalue

variable {r : CapabilityRead}

/-- An operation of a user who has no row does nothing. -/
theorem contextAt_runRead_none {s : CapabilityState}
    (hu : s.users.get? r.userId.value = none) (l : Bool × String) :
    contextAt (s.runRead r).view l = contextAt s.view l := by
  rw [contextAt_runRead]
  simp only [getUserCapabilities, hu]

/-- Managed contexts after an operation that writes to nothing shared. -/
theorem managed_runRead {s : CapabilityState} (hs : s.Ok) (hr : ReadsOnly s r) (serverId : String) :
    (s.runRead r).view.serverContexts.get? serverId = s.view.serverContexts.get? serverId := by
  show contextAt (s.runRead r).view (true, serverId) = contextAt s.view (true, serverId)
  cases hu : s.users.get? r.userId.value with
  | none => exact contextAt_runRead_none hu _
  | some user =>
    rw [contextAt_runRead, contextAt_getUserCapabilities hs hu]
    cases hc : contextAt s.view (true, serverId) with
    | none => rfl
    | some c => rw [Option.map_some, writeBackContext_managed (hr user hu) hc]

/-- A user's temporary contexts after an operation of another user. -/
theorem temporary_runRead_ne {s : CapabilityState} (hs : s.Ok)
    (hne : r.userId ≠ userId) (serverId : String) :
    (s.runRead r).view.getTemporaryServer serverId userId.value =
      s.view.getTemporaryServer serverId userId.value := by
  show contextAt (s.runRead r).view (false, internalKey serverId userId.value) =
    contextAt s.view (false, internalKey serverId userId.value)
  cases hu : s.users.get? r.userId.value with
  | none => exact contextAt_runRead_none hu _
  | some user =>
    rw [contextAt_runRead, contextAt_getUserCapabilities hs hu]
    -- no server of the other user's view is taken from this user's context
    have hfind : s.servers.values.find? (fun server => server.enabled &&
        viewLocation r.userId.value server == (false, internalKey serverId userId.value)) =
        none := by
      rw [List.find?_eq_none]
      intro server _ hprop
      simp only [Bool.and_eq_true, beq_iff_eq, viewLocation] at hprop
      obtain ⟨_, hloc⟩ := hprop
      split at hloc
      · exact hne (internalKey_userId (Prod.mk.inj hloc).2)
      · cases (Prod.mk.inj hloc).1
    cases contextAt s.view (false, internalKey serverId userId.value) with
    | none => rfl
    | some c => simp only [Option.map_some, writeBackContext, hfind]

/-- The user's row after an operation of the user depends on the user's view only. -/
theorem SameFor.users_runRead (hs : s.Ok) (ht : t.Ok) (h : SameFor userId s t)
    (hr : r.userId = userId) :
    (s.runRead r).users.get? userId.value = (t.runRead r).users.get? userId.value := by
  subst hr
  cases r with
  | getUserCapabilities userId =>
    simp only [runRead]
    rw [getUserCapabilities_fst s, getUserCapabilities_fst t]
    exact h.user
  | handleSetCapabilities userId submitted =>
    have huser := h.user
    have hview := h.userView hs ht
    simp only [CapabilityRead.userId] at huser hview
    simp only [runRead, handleSetCapabilities, CapabilityRead.userId]
    rw [getUserCapabilities_fst s, getUserCapabilities_fst t, hview]
    simp only [huser]
    cases hu : t.users.get? userId.value with
    | none => exact huser
    | some user =>
      cases extractEnabledFields submitted (t.userView userId.value) with
      | none => exact huser
      | some prefs => simp only [Dict.get?_set_self]

/-- The conditions under which two runs are the same for a user. -/
theorem unwinding (userId : UserId) :
    Unwinding runRead Ok ReadsOnly (fun r => decide (r.userId = userId)) (SameFor userId) where
  invariant := fun _ r hs _ => hs.runRead r
  symm := fun _ _ h => h.symm
  others := by
    intro s t r hs ht hr hother hsame
    have hne : r.userId ≠ userId := by simpa using hother
    constructor
    · rw [servers_runRead]
      exact hsame.servers
    · intro serverId
      rw [managed_runRead hs hr]
      exact hsame.managed serverId
    · intro serverId
      rw [temporary_runRead_ne hs hne]
      exact hsame.temporary serverId
    · rw [users_runRead_ne s r hne]
      exact hsame.user
  own := by
    intro s t r hs ht hr hr' hown hsame
    obtain rfl : r.userId = userId := by simpa using hown
    constructor
    · rw [servers_runRead, servers_runRead]
      exact hsame.servers
    · intro serverId
      rw [managed_runRead hs hr, managed_runRead ht hr']
      exact hsame.managed serverId
    · intro serverId
      have htemporary := hsame.temporary serverId
      show contextAt (s.runRead r).view (false, internalKey serverId r.userId.value) =
        contextAt (t.runRead r).view (false, internalKey serverId r.userId.value)
      change contextAt s.view (false, internalKey serverId r.userId.value) =
        contextAt t.view (false, internalKey serverId r.userId.value) at htemporary
      cases hu : s.users.get? r.userId.value with
      | none =>
        rw [contextAt_runRead_none hu, contextAt_runRead_none (hsame.user.symm.trans hu)]
        exact htemporary
      | some user =>
        -- both runs write the same back
        rw [contextAt_runRead, contextAt_runRead, contextAt_getUserCapabilities hs hu,
          contextAt_getUserCapabilities ht (hsame.user.symm.trans hu), htemporary, hsame.servers]
    · exact hsame.users_runRead hs ht rfl

end CapabilityState

/-- Reading capabilities and other users. In every state that is reached, a sequence of reads
    none of which writes to a managed configuration leaves all of them as they are; and two
    such sequences, from states that differ in what other users have, in which a user does the
    same things, give this user the same view, danger levels and checks. -/
theorem capability_reads_isolated {trs : List (Transition CapabilityState CapabilityAction)}
    {s : CapabilityState} (h : IsRun CapabilityState.step CapabilityState.init trs s)
    {rs : List CapabilityRead}
    (hrs : Meets CapabilityState.runRead CapabilityState.ReadsOnly s rs) :
    (∀ serverId, (rs.foldl CapabilityState.runRead s).view.serverContexts.get? serverId =
      s.view.serverContexts.get? serverId) ∧
    ∀ (userId : UserId) (trs' : List (Transition CapabilityState CapabilityAction))
      (t : CapabilityState) (rs' : List CapabilityRead),
      IsRun CapabilityState.step CapabilityState.init trs' t →
      Meets CapabilityState.runRead CapabilityState.ReadsOnly t rs' →
      rs.filter (fun r => decide (r.userId = userId)) =
        rs'.filter (fun r => decide (r.userId = userId)) →
      CapabilityState.SameFor userId s t →
      let s' := rs.foldl CapabilityState.runRead s
      let t' := rs'.foldl CapabilityState.runRead t
      s'.userView userId.value = t'.userView userId.value ∧
      (∀ session : ClientSession, session.userId = userId.value → ∀ serverID type name,
        session.canAccessServerCapabilities s'.view serverID type name =
          session.canAccessServerCapabilities t'.view serverID type name) ∧
      ∀ serverID toolName,
        (s'.view.getServerContext serverID (some userId.value)).bind (·.getDangerLevel toolName) =
          (t'.view.getServerContext serverID (some userId.value)).bind
            (·.getDangerLevel toolName) := by
  have hs := CapabilityState.ok_of_run h
  constructor
  · intro serverId
    have hinv : (rs.foldl CapabilityState.runRead s).Ok ∧
        (rs.foldl CapabilityState.runRead s).view.serverContexts.get? serverId =
          s.view.serverContexts.get? serverId := by
      apply foldl_invariant (I := fun s' => s'.Ok ∧
        s'.view.serverContexts.get? serverId = s.view.serverContexts.get? serverId)
        (G := CapabilityState.ReadsOnly)
      · intro s' r hs' hr
        exact ⟨hs'.1.runRead r, (CapabilityState.managed_runRead hs'.1 hr serverId).trans hs'.2⟩
      · exact ⟨hs, rfl⟩
      · exact hrs
    exact hinv.2
  · intro userId trs' t rs' h' hrs' hmine hsame s' t'
    have ht := CapabilityState.ok_of_run h'
    have hunwinding := CapabilityState.unwinding userId
    have hsame' : CapabilityState.SameFor userId s' t' :=
      hunwinding.foldl_same hs ht hrs hrs' hmine hsame
    have hs' : s'.Ok := foldl_invariant hunwinding.invariant hs hrs
    have ht' : t'.Ok := foldl_invariant hunwinding.invariant ht hrs'
    refine ⟨hsame'.userView hs' ht', ?_, ?_⟩
    · intro session hsession
      exact hsame'.canAccessServerCapabilities session hsession
    · intro serverID toolName
      rw [hsame'.getServerContext]

namespace CapabilityState

/-- Where the lists of all managed servers are loaded, nothing shared is written. -/
theorem not_writesShared_of_loaded {s : CapabilityState}
    (h : ∀ c ∈ s.view.serverContexts.values, c.lists.isLoaded .tool = true ∧
      c.lists.isLoaded .resource = true ∧ c.lists.isLoaded .prompt = true) (user : User) :
    ¬WritesShared s user := by
  intro hwrites
  obtain ⟨server, _, _, _, c, hc, kind, name, v, hload, _⟩ := hwrites
  obtain ⟨htool, hresource, hprompt⟩ := h c (Dict.mem_values_of_get? hc)
  cases kind with
  | tool => cases htool.symm.trans hload
  | resource => cases hresource.symm.trans hload
  | prompt => cases hprompt.symm.trans hload

end CapabilityState

/-! ## Runs -/

/-- Two users. -/
def alice : UserId := ⟨"a1", UserId.hex_of_all (by decide)⟩

def bob : UserId := ⟨"b2", UserId.hex_of_all (by decide)⟩

/-- A public server with one tool, which needs approval. -/
def filesServer : Server where
  serverId := "files"
  serverName := "Files"
  enabled := true
  capabilities :=
    ⟨Dict.empty.set "purge" ⟨some true, none, some .approval⟩, .empty, .empty⟩
  allowUserInput := false
  configTemplate := none
  authType := 1
  category := 1
  publicAccess := true
  anonymousAccess := false
  cached := .none

/-- Permissions that switch the tool off. -/
def purgeOff : Permissions :=
  Dict.empty.set "files" {
    tools := Dict.empty.set "purge" ⟨some false, none, none⟩
    resources := .empty
    prompts := .empty
    enabled := some true
    serverName := "Files"
    allowUserInput := false
    authType := 1
    category := none
    configTemplate := ""
    configured := true
    status := none }

/-- The server is set up with these lists; the tool is switched off for one of two users. -/
def shareFiles (lists : ServerLists) : List CapabilityAction :=
  [.saveServer filesServer, .initializeManagedServerContext "files",
    .refresh "files" none .sleeping none lists, .createUser alice purgeOff,
    .createUser bob .empty]

/-- The lists of the server once it was connected. -/
def filesLists : ServerLists :=
  ⟨some [⟨"purge", none, none, none, none⟩], some [], some [], some []⟩

def bobSession : ClientSession := ⟨false, bob.value, .empty, .empty⟩

theorem capability_reads_isolated_loaded :
    ∃ s, exec CapabilityState.step CapabilityState.init (shareFiles filesLists) = some s ∧
      Meets CapabilityState.runRead CapabilityState.ReadsOnly s
        [.getUserCapabilities alice, .handleSetCapabilities alice .empty] ∧
      s.userView bob.value = (s.runRead (.getUserCapabilities alice)
        |>.runRead (.handleSetCapabilities alice .empty)).userView bob.value := by
  have hloaded : ∃ s, exec CapabilityState.step CapabilityState.init (shareFiles filesLists) =
      some s ∧ ∀ t ∈ [s, s.runRead (.getUserCapabilities alice)],
        ∀ c ∈ t.view.serverContexts.values, c.lists.isLoaded .tool = true ∧
          c.lists.isLoaded .resource = true ∧ c.lists.isLoaded .prompt = true := by
    have hsome : (exec CapabilityState.step CapabilityState.init
        (shareFiles filesLists)).any (fun s =>
        decide (∀ t ∈ [s, s.runRead (.getUserCapabilities alice)],
          ∀ c ∈ t.view.serverContexts.values, c.lists.isLoaded .tool = true ∧
            c.lists.isLoaded .resource = true ∧ c.lists.isLoaded .prompt = true)) = true := by
      decide +kernel
    rw [Option.any_eq_true] at hsome
    obtain ⟨s, hs, hprop⟩ := hsome
    exact ⟨s, hs, of_decide_eq_true hprop⟩
  obtain ⟨s, hs, hlists⟩ := hloaded
  have hrun := isRun_trace _ _ _ hs
  have hmeets : Meets CapabilityState.runRead CapabilityState.ReadsOnly s
      [.getUserCapabilities alice, .handleSetCapabilities alice .empty] := by
    refine ⟨?_, ?_, trivial⟩
    · intro user _
      exact CapabilityState.not_writesShared_of_loaded (hlists s (by simp)) user
    · intro user _
      exact CapabilityState.not_writesShared_of_loaded (hlists _ (by simp)) user
  refine ⟨s, hs, hmeets, ?_⟩
  have hsame := (capability_reads_isolated hrun hmeets).2 bob _ s [] hrun trivial rfl
    ⟨rfl, fun _ => rfl, fun _ => rfl, rfl⟩
  exact hsame.1.symm

/-- While the lists of a server are not loaded, reading a user's capabilities writes the
    user's permission to the server's configuration: the tool is switched off for the other
    user, and no longer needs approval. -/
theorem capability_read_leaks :
    ∃ s, IsRun CapabilityState.step CapabilityState.init
        (trace CapabilityState.step CapabilityState.init (shareFiles .none)) s ∧
      (s.runRead (.getUserCapabilities alice)).view.serverContexts.get? "files" ≠
        s.view.serverContexts.get? "files" ∧
      [CapabilityRead.getUserCapabilities alice].filter (fun r => decide (r.userId = bob)) = [] ∧
      (bobSession.canAccessServerCapabilities s.view "files" .tool "purge").isSome = true ∧
      (bobSession.canAccessServerCapabilities (s.runRead (.getUserCapabilities alice)).view
        "files" .tool "purge").isSome = false ∧
      (s.view.getServerContext "files" (some bob.value)).bind (·.getDangerLevel "purge") =
        some .approval ∧
      ((s.runRead (.getUserCapabilities alice)).view.getServerContext "files"
        (some bob.value)).bind (·.getDangerLevel "purge") = some .silent := by
  have hobs : (exec CapabilityState.step CapabilityState.init (shareFiles .none)).map (fun s =>
      ((bobSession.canAccessServerCapabilities s.view "files" .tool "purge").isSome,
        (bobSession.canAccessServerCapabilities (s.runRead (.getUserCapabilities alice)).view
          "files" .tool "purge").isSome,
        (s.view.getServerContext "files" (some bob.value)).bind (·.getDangerLevel "purge"),
        ((s.runRead (.getUserCapabilities alice)).view.getServerContext "files"
          (some bob.value)).bind (·.getDangerLevel "purge"))) =
      some (true, false, some .approval, some .silent) := by
    decide +kernel
  obtain ⟨s, hs, hobs⟩ := Option.map_eq_some_iff.mp hobs
  simp only [Prod.mk.injEq] at hobs
  obtain ⟨hbefore, hafter, hlevel, hlevel'⟩ := hobs
  refine ⟨s, isRun_trace _ _ _ hs, ?_, rfl, hbefore, hafter, hlevel, hlevel'⟩
  -- the level of the tool is read from the managed context
  intro hsame
  have hlevels : (s.view.getServerContext "files" (some bob.value)).bind
      (·.getDangerLevel "purge") = ((s.runRead (.getUserCapabilities alice)).view.getServerContext
        "files" (some bob.value)).bind (·.getDangerLevel "purge") := by
    have hne : (CapabilityRead.getUserCapabilities alice).userId ≠ bob := by decide
    have htemporary := CapabilityState.temporary_runRead_ne
      (CapabilityState.ok_of_run (isRun_trace _ _ _ hs)) hne "files"
    simp only [ServerManager.getServerContext, hsame, htemporary]
  rw [hlevel, hlevel'] at hlevels
  exact absurd hlevels (by decide)

end PetaCore
