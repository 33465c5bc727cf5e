import PetaCore.ForStd.Segments
import PetaCore.Spec.CapabilityIsolation

/-!
# Server contexts over whole runs

Whatever administrators, connections and users do, a managed context is kept under its server
id and belongs to no user, a temporary one under the ids of its server and its user, and no two
contexts have the same id. So a session finds only its own user's contexts, and the names that
it gives out lead back to the context they were made for.

## Key results

- `CapabilityState.contextsOk_of_run`: the contexts are kept so in every state that is reached
- `ContextsOk.parseName_generateNewName`: a name that was given out is parsed to its server
-/

namespace PetaCore

open Run CapabilityState ClientSession

/-! ## Where contexts are kept -/

/-- The place at which a context is kept. -/
def PlacedAt {κ : Type} (c : ServerContext κ) : Bool × String → Prop
  | (true, serverId) => c.serverID = serverId ∧ c.userId = none
  | (false, key) => ∃ u : UserId, c.userId = some u.value ∧ key = internalKey c.serverID u.value

structure ContextsOk {κ : Type} (m : ServerManager κ) (nextId : Nat) : Prop where
  placed : ∀ l c, contextAt m l = some c → PlacedAt c l
  numbered : ∀ l c, contextAt m l = some c → ∃ n, n < nextId ∧ c.id = toString n
  distinct : ∀ l l' c c', contextAt m l = some c → contextAt m l' = some c' → c.id = c'.id → l = l'

/-- Two contexts with the same id, server and user. -/
structure SameContext {κ κ' : Type} (c : ServerContext κ) (c' : ServerContext κ') : Prop where
  id : c'.id = c.id
  serverID : c'.serverID = c.serverID
  userId : c'.userId = c.userId

theorem PlacedAt.congr {κ κ' : Type} {c : ServerContext κ} {c' : ServerContext κ'}
    {l : Bool × String} (h : PlacedAt c l) (hsame : SameContext c c') : PlacedAt c' l := by
  obtain ⟨b, key⟩ := l
  cases b with
  | true => exact ⟨hsame.serverID.trans h.1, hsame.userId.trans h.2⟩
  | false =>
    obtain ⟨u, hu, hkey⟩ := h
    exact ⟨u, hsame.userId.trans hu, by rw [hsame.serverID]; exact hkey⟩

namespace ContextsOk

variable {κ κ' : Type} {m : ServerManager κ} {nextId : Nat}

theorem init (nextId : Nat) : ContextsOk (ServerManager.empty : ServerManager κ) nextId where
  placed := by
    intro l c hc
    obtain ⟨b, key⟩ := l
    cases b with
    | true => cases hc
    | false => cases hc
  numbered := by
    intro l c hc
    obtain ⟨b, key⟩ := l
    cases b with
    | true => cases hc
    | false => cases hc
  distinct := by
    intro l l' c c' hc
    obtain ⟨b, key⟩ := l
    cases b with
    | true => cases hc
    | false => cases hc

theorem map (h : ContextsOk m nextId) (f : κ → κ') : ContextsOk (m.map f) nextId where
  placed := by
    intro l c hc
    rw [contextAt_map] at hc
    obtain ⟨c₀, hc₀, rfl⟩ := Option.map_eq_some_iff.mp hc
    exact (h.placed l c₀ hc₀).congr ⟨rfl, rfl, rfl⟩
  numbered := by
    intro l c hc
    rw [contextAt_map] at hc
    obtain ⟨c₀, hc₀, rfl⟩ := Option.map_eq_some_iff.mp hc
    exact h.numbered l c₀ hc₀
  distinct := by
    intro l l' c c' hc hc' hid
    rw [contextAt_map] at hc hc'
    obtain ⟨c₀, hc₀, rfl⟩ := Option.map_eq_some_iff.mp hc
    obtain ⟨c₁, hc₁, rfl⟩ := Option.map_eq_some_iff.mp hc'
    exact h.distinct l l' c₀ c₁ hc₀ hc₁ hid

/-- A context changes in place. -/
theorem setContext_same (h : ContextsOk m nextId) {l : Bool × String} {c c' : ServerContext κ}
    (hc : contextAt m l = some c) (hsame : SameContext c c') :
    ContextsOk (setContext m l c') nextId := by
  -- every context of the new manager has its counterpart in the old one
  have hold : ∀ l₁ c₁, contextAt (setContext m l c') l₁ = some c₁ →
      ∃ c₀, contextAt m l₁ = some c₀ ∧ SameContext c₀ c₁ := by
    intro l₁ c₁ hc₁
    rw [contextAt_setContext] at hc₁
    split at hc₁
    · rename_i hl
      rw [hl, ← Option.some.inj hc₁]
      exact ⟨c, hc, hsame⟩
    · exact ⟨c₁, hc₁, rfl, rfl, rfl⟩
  refine ⟨?_, ?_, ?_⟩
  · intro l₁ c₁ hc₁
    obtain ⟨c₀, hc₀, hsame₀⟩ := hold l₁ c₁ hc₁
    exact (h.placed l₁ c₀ hc₀).congr hsame₀
  · intro l₁ c₁ hc₁
    obtain ⟨c₀, hc₀, hsame₀⟩ := hold l₁ c₁ hc₁
    rw [hsame₀.id]
    exact h.numbered l₁ c₀ hc₀
  · intro l₁ l₂ c₁ c₂ hc₁ hc₂ hid
    obtain ⟨c₀, hc₀, hsame₀⟩ := hold l₁ c₁ hc₁
    obtain ⟨c₃, hc₃, hsame₃⟩ := hold l₂ c₂ hc₂
    exact h.distinct l₁ l₂ c₀ c₃ hc₀ hc₃ (hsame₀.id.symm.trans (hid.trans hsame₃.id))

/-- A new context gets the next id. -/
theorem setContext_new (h : ContextsOk m nextId) {l : Bool × String} {c : ServerContext κ}
    (hplaced : PlacedAt c l) (hid : c.id = toString nextId) :
    ContextsOk (setContext m l c) (nextId + 1) := by
  refine ⟨?_, ?_, ?_⟩
  · intro l₁ c₁ hc₁
    rw [contextAt_setContext] at hc₁
    split at hc₁
    · rename_i hl
      rw [hl, ← Option.some.inj hc₁]
      exact hplaced
    · exact h.placed l₁ c₁ hc₁
  · intro l₁ c₁ hc₁
    rw [contextAt_setContext] at hc₁
    split at hc₁
    · rw [← Option.some.inj hc₁]
      exact ⟨nextId, Nat.lt_succ_self _, hid⟩
    · obtain ⟨n, hn, hid₁⟩ := h.numbered l₁ c₁ hc₁
      exact ⟨n, Nat.lt_succ_of_lt hn, hid₁⟩
  · intro l₁ l₂ c₁ c₂ hc₁ hc₂ hids
    rw [contextAt_setContext] at hc₁ hc₂
    -- an id below the next one is not the new one
    have hne : ∀ l₁ c₁, contextAt m l₁ = some c₁ → c₁.id ≠ c.id := by
      intro l₁ c₁ hc₁ heq
      obtain ⟨n, hn, hid₁⟩ := h.numbered l₁ c₁ hc₁
      rw [hid, hid₁] at heq
      have hnext := Nat.toString_inj heq
      omega
    split at hc₁
    · rename_i hl₁
      cases hc₁
      split at hc₂
      · rename_i hl₂
        rw [hl₁, hl₂]
      · exact absurd hids.symm (hne l₂ c₂ hc₂)
    · split at hc₂
      · cases hc₂
        exact absurd hids (hne l₁ c₁ hc₁)
      · exact h.distinct l₁ l₂ c₁ c₂ hc₁ hc₂ hids

theorem eraseContext (h : ContextsOk m nextId) (l : Bool × String) :
    ContextsOk (eraseContext m l) nextId := by
  have hold : ∀ l₁ c₁, contextAt (CapabilityState.eraseContext m l) l₁ = some c₁ →
      contextAt m l₁ = some c₁ := by
    intro l₁ c₁ hc₁
    rw [contextAt_eraseContext] at hc₁
    split at hc₁
    · cases hc₁
    · exact hc₁
  exact ⟨fun l₁ c₁ hc₁ => h.placed l₁ c₁ (hold l₁ c₁ hc₁),
    fun l₁ c₁ hc₁ => h.numbered l₁ c₁ (hold l₁ c₁ hc₁),
    fun l₁ l₂ c₁ c₂ hc₁ hc₂ => h.distinct l₁ l₂ c₁ c₂ (hold l₁ c₁ hc₁) (hold l₂ c₂ hc₂)⟩

end ContextsOk

/-! ## Runs -/

namespace CapabilityState

variable {s s' : CapabilityState}

/-- Setting up a context keeps the contexts in order. -/
theorem contextsOk_initializeContext (h : ContextsOk s.manager s.nextId) (l : Bool × String)
    (server : Server) (userId : Option String) {contexts : Dict (ServerContext Ref)}
    (hget : contexts.get? l.2 = contextAt s.manager l)
    (hplaced : ∀ c : ServerContext Ref, c.serverID = server.serverId → c.userId = userId →
      PlacedAt c l) :
    ∃ c, (s.initializeContext contexts l.2 server userId).2.1 = contexts.set l.2 c ∧
      ContextsOk (setContext s.manager l c)
        (s.initializeContext contexts l.2 server userId).2.2 := by
  simp only [initializeContext]
  cases hc : contexts.get? l.2 with
  | some c =>
    rw [hget] at hc
    exact ⟨_, rfl, h.setContext_same hc ⟨rfl, rfl, rfl⟩⟩
  | none =>
    refine ⟨_, rfl, h.setContext_new ?_ rfl⟩
    exact hplaced _ rfl rfl

/-- Every operation keeps the contexts in order. -/
theorem contextsOk_step (hs : s.Ok) (h : ContextsOk s.manager s.nextId) {a : CapabilityAction}
    (hstep : s.step a = some s') : ContextsOk s'.manager s'.nextId := by
  cases a with
  | saveServer server =>
    simp only [CapabilityState.step] at hstep
    split at hstep
    · cases hstep
      exact h
    · cases hstep
      exact h
  | deleteServer serverId =>
    cases hstep
    exact h
  | updateServerCapabilities serverId newCapabilities =>
    simp only [CapabilityState.step, Option.bind_eq_bind, Option.bind_eq_some_iff] at hstep
    obtain ⟨server, _, hstep⟩ := hstep
    split at hstep
    · cases hstep
      exact h
    · split at hstep
      · cases hstep
        exact h
      · rename_i c hc
        cases hstep
        refine h.setContext_same (l := (true, serverId)) hc ?_
        simp only [ServerContext.updateCapabilitiesConfig]
        split
        · exact ⟨rfl, rfl, rfl⟩
        · exact ⟨rfl, rfl, rfl⟩
  | createUser userId permissions =>
    simp only [CapabilityState.step] at hstep
    split at hstep
    · cases hstep
    · cases hstep
      exact h
  | updatePermissions userId permissions =>
    simp only [CapabilityState.step, Option.bind_eq_bind, Option.bind_eq_some_iff] at hstep
    obtain ⟨user, _, hstep⟩ := hstep
    cases hstep
    exact h
  | initializeManagedServerContext serverId =>
    simp only [CapabilityState.step, Option.bind_eq_bind, Option.bind_eq_some_iff] at hstep
    obtain ⟨server, hserver, hstep⟩ := hstep
    cases hstep
    obtain ⟨c, hset, hok⟩ := contextsOk_initializeContext h (true, serverId) server none rfl
      (fun c hid huser => ⟨hid.trans (hs.keyed serverId server hserver), huser⟩)
    simp only at hset hok
    simp only [hset]
    exact hok
  | initializeTemporaryServerContext serverId userId =>
    simp only [CapabilityState.step, Option.bind_eq_bind, Option.bind_eq_some_iff] at hstep
    obtain ⟨server, hserver, hstep⟩ := hstep
    cases hstep
    obtain ⟨c, hset, hok⟩ := contextsOk_initializeContext h
      (false, internalKey serverId userId.value) server (some userId.value) rfl
      (fun c hid huser =>
        ⟨userId, huser, by rw [hid, hs.keyed serverId server hserver]⟩)
    simp only at hset hok
    simp only [hset]
    exact hok
  | refresh serverId userId status capabilities lists =>
    cases userId with
    | none =>
      simp only [CapabilityState.step, Option.bind_eq_bind, Option.bind_eq_some_iff] at hstep
      obtain ⟨c, hc, hstep⟩ := hstep
      cases hstep
      exact h.setContext_same (l := (true, serverId)) hc ⟨rfl, rfl, rfl⟩
    | some userId =>
      simp only [CapabilityState.step, Option.bind_eq_bind, Option.bind_eq_some_iff] at hstep
      obtain ⟨c, hc, hstep⟩ := hstep
      cases hstep
      exact h.setContext_same (l := (false, internalKey serverId userId.value)) hc ⟨rfl, rfl, rfl⟩
  | removeServer serverId =>
    cases hstep
    exact h.eraseContext (true, serverId)
  | closeTemporaryServer serverId userId =>
    cases hstep
    exact h.eraseContext (false, internalKey serverId userId.value)
  | read r =>
    cases hstep
    cases runRead_cases s r with
    | inl hread =>
      rw [hread]
      exact h
    | inr hread =>
      obtain ⟨_, _, _, _, _, _, hread⟩ := hread
      rw [hread]
      exact h

/-- The contexts are kept in order in every state that is reached. -/
theorem contextsOk_of_run {trs : List (Transition CapabilityState CapabilityAction)}
    (h : IsRun CapabilityState.step CapabilityState.init trs s) : ContextsOk s.view s.nextId := by
  have hinv : s.Ok ∧ ContextsOk s.manager s.nextId :=
    h.invariant (I := fun s => s.Ok ∧ ContextsOk s.manager s.nextId)
      (fun _ _ _ hs hstep => ⟨hs.1.step hstep, contextsOk_step hs.1 hs.2 hstep⟩)
      ⟨Ok.init, ContextsOk.init _⟩
  exact hinv.2.map s.heap.read

end CapabilityState

/-! ## Names -/

theorem splitLast_of_notMem {l : List Char} (h : '_' ∉ l) : splitLast l = none := by
  induction l with
  | nil => rfl
  | cons c cs ih =>
    have hc : c ≠ '_' := fun heq => h (heq ▸ List.mem_cons_self)
    have hcs := ih (fun hmem => h (List.mem_cons_of_mem c hmem))
    have hsep : ['_', '-', '_'].isPrefixOf (c :: cs) = false := by
      simp [List.isPrefixOf, Ne.symm hc]
    simp [splitLast, hcs, hsep]

/-- The last separator is the one before a text without `_`. -/
theorem splitLast_append (before : List Char) {after : List Char} (h : '_' ∉ after) :
    splitLast (before ++ '_' :: '-' :: '_' :: after) = some (before, after) := by
  induction before with
  | nil =>
    have hafter := splitLast_of_notMem h
    have hsep : ['_', '-', '_'].isPrefixOf ('_' :: after) = false := by
      cases after with
      | nil => rfl
      | cons c cs =>
        cases cs with
        | nil => simp [List.isPrefixOf]
        | cons d ds =>
          have hd : d ≠ '_' := fun heq => h (by simp [heq])
          simp [List.isPrefixOf, Ne.symm hd]
    have htail : splitLast ('_' :: after) = none := by simp [splitLast, hafter, hsep]
    have htail' : splitLast ('-' :: '_' :: after) = none := by
      rw [splitLast, htail]
      simp [List.isPrefixOf]
    show splitLast ('_' :: '-' :: '_' :: after) = some ([], after)
    rw [splitLast, htail']
    simp [List.isPrefixOf]
  | cons c cs ih => simp [splitLast, ih]

theorem toList_generateNewName (id name : String) :
    (generateNewName id name).toList = name.toList ++ '_' :: '-' :: '_' :: id.toList := by
  simp [generateNewName, String.toList_append]

namespace ContextsOk

variable {c : ServerContext CapabilityConfig}

variable {m : ServerManager CapabilityConfig} {nextId : Nat}

variable {l : Bool × String}

theorem id_plain (h : ContextsOk m nextId) (hc : contextAt m l = some c) :
    '_' ∉ c.id.toList := by
  obtain ⟨n, _, hid⟩ := h.numbered l c hc
  rw [hid]
  exact Nat.notMem_toString (by decide) n

theorem splitLast_generateNewName (h : ContextsOk m nextId)
    (hc : contextAt m l = some c) (name : String) :
    splitLast (generateNewName c.id name).toList = some (name.toList, c.id.toList) := by
  rw [toList_generateNewName]
  exact splitLast_append name.toList (h.id_plain hc)

/-- A name that is given out names one item of one context. -/
theorem generateNewName_inj (h : ContextsOk m nextId) {l' : Bool × String}
    {c c' : ServerContext CapabilityConfig} (hc : contextAt m l = some c)
    (hc' : contextAt m l' = some c') {name name' : String}
    (hname : generateNewName c.id name = generateNewName c'.id name') :
    c = c' ∧ name = name' := by
  have hsplit := h.splitLast_generateNewName hc name
  rw [hname, h.splitLast_generateNewName hc' name', Option.some.injEq, Prod.mk.injEq] at hsplit
  have hid : c'.id = c.id := String.toList_inj.mp hsplit.2
  have hl := h.distinct l' l c' c hc' hc hid
  rw [hl, hc] at hc'
  exact ⟨Option.some.inj hc', (String.toList_inj.mp hsplit.1).symm⟩

/-- The contexts of one of the two dictionaries, by id. -/
theorem find?_values (h : ContextsOk m nextId) {b : Bool}
    {d : Dict (ServerContext CapabilityConfig)} (hd : ∀ key, contextAt m (b, key) = d.get? key)
    {p : ServerContext CapabilityConfig → Bool} {id : String} (hp : ∀ c, p c = true → c.id = id)
    {key : String} (hc : d.get? key = some c) (hpc : p c = true) : d.values.find? p = some c := by
  cases hfind : d.values.find? p with
  | none => exact absurd hpc (List.find?_eq_none.mp hfind c (Dict.mem_values_of_get? hc))
  | some c' =>
    obtain ⟨key', hc'⟩ := Dict.mem_values (List.mem_of_find?_eq_some hfind)
    have hids : c'.id = c.id := (hp c' (List.find?_some hfind)).trans (hp c hpc).symm
    have hl := h.distinct (b, key') (b, key) c' c ((hd key').trans hc') ((hd key).trans hc) hids
    rw [(Prod.mk.inj hl).2, hc] at hc'
    exact hc'.symm

/-- A name that was given out for a context of the session is parsed to its server. -/
theorem parseName_generateNewName (h : ContextsOk m nextId) {s : ClientSession}
    (hc : contextAt m l = some c) (hown : l.1 = true ∨ c.userId = some s.userId) (name : String) :
    s.parseName m (generateNewName c.id name) = some ⟨c.serverID, name⟩ := by
  unfold parseName
  rw [h.splitLast_generateNewName hc]
  have hfound : (m.getServerContextByID c.id).or (m.getTemporaryServerContextByID c.id s.userId) =
      some c := by
    obtain ⟨b, key⟩ := l
    cases b with
    | true =>
      have hfind : m.getServerContextByID c.id = some c :=
        h.find?_values (b := true) (fun _ => rfl) (fun c' hc' => eq_of_beq hc') hc (beq_self_eq_true _)
      rw [hfind, Option.some_or]
    | false =>
      have huser : c.userId = some s.userId := by
        cases hown with
        | inl hmanaged => cases hmanaged
        | inr huser => exact huser
      -- no managed context has the id of a temporary one
      have hmanaged : m.getServerContextByID c.id = none := by
        rw [ServerManager.getServerContextByID, List.find?_eq_none]
        intro c' hmem hid
        obtain ⟨key', hc'⟩ := Dict.mem_values hmem
        have hl := h.distinct (true, key') (false, key) c' c hc' hc (eq_of_beq hid)
        cases hl
      have hfind : m.getTemporaryServerContextByID c.id s.userId = some c := by
        have hids : ∀ c' : ServerContext CapabilityConfig,
            (c'.id == c.id && c'.userId == some s.userId) = true → c'.id = c.id := by
          intro c' hc'
          simp only [Bool.and_eq_true, beq_iff_eq] at hc'
          exact hc'.1
        exact h.find?_values (b := false) (fun _ => rfl) hids hc (by simp [huser])
      rw [hmanaged, hfind, Option.none_or]
  simp only [String.ofList_toList, hfound]

/-! ## The context of a session -/

/-- A context that a session finds is kept under the server id, or under the server id and the
    session's user id. -/
theorem contextAt_of_getServerContext {serverID : String} {userId : String}
    (hc : m.getServerContext serverID (some userId) = some c) :
    contextAt m (true, serverID) = some c ∨ m.getTemporaryServer serverID userId = some c := by
  unfold ServerManager.getServerContext at hc
  split at hc
  · rename_i c' hc'
    cases hc
    exact Or.inl hc'
  · simp only at hc
    split at hc
    · cases hc
    · exact Or.inr hc

end ContextsOk

/-- Temporary contexts are kept for users: a session has the id of a user, or there are none
    under its id. -/
def ClientSession.HasUser (m : ServerManager CapabilityConfig) (s : ClientSession) : Prop :=
  (∃ u : UserId, s.userId = u.value) ∨ ∀ serverID, m.getTemporaryServer serverID s.userId = none

/-- The context that a session finds for a server. -/
structure OwnContext (m : ServerManager CapabilityConfig) (s : ClientSession) (serverID : String)
    (c : ServerContext CapabilityConfig) : Prop where
  serverID : c.serverID = serverID
  location : ∃ l, contextAt m l = some c ∧ (l.1 = true ∨ c.userId = some s.userId)

variable {c : ServerContext CapabilityConfig} {m : ServerManager CapabilityConfig}
  {s : ClientSession}

theorem ContextsOk.ownContext {nextId : Nat}
    (h : ContextsOk m nextId) (hs : s.HasUser m) {serverID : String}
    (hc : m.getServerContext serverID (some s.userId) = some c) : OwnContext m s serverID c := by
  cases contextAt_of_getServerContext hc with
  | inl hmanaged => exact ⟨(h.placed _ c hmanaged).1, _, hmanaged, Or.inl rfl⟩
  | inr htemporary =>
    cases hs with
    | inr hnone => cases (hnone serverID).symm.trans htemporary
    | inl huser =>
      obtain ⟨u, hu⟩ := huser
      rw [hu] at htemporary
      obtain ⟨u', hu', hkey⟩ := h.placed (false, internalKey serverID u.value) c htemporary
      obtain rfl := internalKey_userId hkey
      have hserver : serverID = c.serverID := by
        have hlist := congrArg String.toList hkey
        simp only [internalKey, String.toList_append] at hlist
        exact String.toList_inj.mp (List.append_cancel_right (List.append_cancel_right hlist))
      exact ⟨hserver.symm, (false, internalKey serverID u.value), htemporary, Or.inr (hu'.trans (congrArg some hu.symm))⟩

/-- A context that a session can access is among those it sees. -/
theorem OwnContext.mem_getAvailableServers {serverID : String}
    (h : OwnContext m s serverID c) (havailable : c.isAvailable = true)
    (haccess : s.canAccessServer m serverID = true) : c ∈ s.getAvailableServers m := by
  obtain ⟨⟨b, key⟩, hc, _⟩ := h.location
  have hmem : c ∈ m.getAvailableServers := by
    unfold ServerManager.getAvailableServers
    rw [List.mem_append]
    cases b with
    | true => exact Or.inl (List.mem_filter.mpr ⟨Dict.mem_values_of_get? hc, havailable⟩)
    | false => exact Or.inr (List.mem_filter.mpr ⟨Dict.mem_values_of_get? hc, havailable⟩)
  unfold ClientSession.getAvailableServers
  exact List.mem_filter.mpr ⟨hmem, by rw [h.serverID]; exact haccess⟩

/-- Every context that a session sees is kept somewhere. -/
theorem exists_contextAt_of_mem (hc : c ∈ s.getAvailableServers m) :
    ∃ l, contextAt m l = some c := by
  have hmem := (List.mem_filter.mp hc).1
  unfold ServerManager.getAvailableServers at hmem
  rw [List.mem_append] at hmem
  cases hmem with
  | inl hmem =>
    obtain ⟨key, hkey⟩ := Dict.mem_values (List.mem_filter.mp hmem).1
    exact ⟨(true, key), hkey⟩
  | inr hmem =>
    obtain ⟨key, hkey⟩ := Dict.mem_values (List.mem_filter.mp hmem).1
    exact ⟨(false, key), hkey⟩

end PetaCore
