import PetaCore.Spec.ProxySession

/-!
# The cached and the served resource result

A cached payload is what the downstream server has answered, in its own names. The handler
gives it out as it is when its early lookup hits, and rewrites it into the names of the gateway
on every other path.

## Key results

- `cached_read_eq_served_read_iff`: when the early lookup makes no difference to the client
- `handleResourceRead_delivers`: what a read may return
-/

namespace PetaCore

open ClientSession ProxySession

/-! ## Rewriting -/

theorem generateNewName_ne (serverID name : String) : generateNewName serverID name ≠ name := by
  intro h
  have hlen := congrArg (fun t => t.toList.length) h
  simp [generateNewName, String.toList_append] at hlen

/-- For a client that supports MCP Apps, the two controllers rewrite alike. -/
theorem rewriteResourceResult_eq (m : ServerManager CapabilityConfig) (s : ClientSession)
    (result : ReadResourceResult) (serverID : String) :
    rewriteResourceResult m result serverID s.userId true =
      rewriteAppResourceResult m s result serverID := by
  cases hc : m.getServerContext serverID (some s.userId) with
  | none =>
    -- without a context both leave the result as it is
    have hid : (fun content : ResourceContents =>
        { content with uri := content.uri, text := content.text.map fun text =>
            rewriteAppResourceText text content.mimeType [] }) = id := by
      funext content
      obtain ⟨uri, mimeType, text, rest⟩ := content
      cases text with
      | none => rfl
      | some text =>
        simp only [Option.map_some, rewriteAppResourceText, List.foldl_nil, ite_self, id]
    simp only [rewriteResourceResult, rewriteAppResourceResult, hc, if_true]
    rw [hid, List.map_id]
  | some c => simp only [rewriteResourceResult, rewriteAppResourceResult, hc, if_true]

/-- Rewriting changes a result that has contents, as every content gets a new URI. -/
theorem rewriteAppResourceResult_eq_self_iff (m : ServerManager CapabilityConfig)
    (s : ClientSession) (result : ReadResourceResult) (serverID : String) :
    result = rewriteAppResourceResult m s result serverID ↔
      result.contents = [] ∨ m.getServerContext serverID (some s.userId) = none := by
  obtain ⟨contents, rest⟩ := result
  simp only [rewriteAppResourceResult]
  cases hc : m.getServerContext serverID (some s.userId) with
  | none => simp
  | some c =>
    cases contents with
    | nil => simp
    | cons content contents =>
      simp only [List.map_cons, ReadResourceResult.mk.injEq, List.cons.injEq, reduceCtorEq,
        or_self, and_true, iff_false, not_and]
      intro hcontent
      have huri := congrArg ResourceContents.uri hcontent
      exact absurd huri.symm (generateNewName_ne c.id content.uri)

/-! ## The handler -/

/-- The session may read the resource, and the handler asks the cache for it first. -/
structure ReachesCache (s : ClientSession) (a : ResourceReadAttempt) (resourceUri : String)
    (route : GatewayRoute) : Prop where
  resolved : s.resolveResourceUri a.manager resourceUri = some route
  permitted : s.canAccessResource a.manager route.serverID route.originalName = true
  lookup : looksUpEarly s a route = true

/-- Without a hit, the handler would get as far as the server's answer. -/
structure ReachesServer (s : ClientSession) (a : ResourceReadAttempt) (route : GatewayRoute) :
    Prop where
  ensured : ∃ manager c, a.ensured = .ok manager ∧
    manager.getServerContext route.serverID (some s.userId) = some c
  connected : a.connected = true

section

variable {s : ClientSession} {a : ResourceReadAttempt} {resourceUri : String}
  {route : GatewayRoute}

theorem attemptResourceRead_cached (h : ReachesCache s a resourceUri route)
    (payload : ReadResourceResult) :
    attemptResourceRead s { a with cached := some payload } resourceUri =
      .final (.ok payload) := by
  have hlookup : looksUpEarly s { a with cached := some payload } route = true := h.lookup
  simp only [attemptResourceRead, h.resolved, h.permitted, hlookup, if_true]

theorem readFromServer_served (hserver : ReachesServer s a route) (payload : ReadResourceResult) :
    readFromServer s { a with cached := none, served := .ok payload } resourceUri route =
      .final (.ok (rewriteAppResourceResult a.managerAfter s payload route.serverID)) := by
  obtain ⟨manager, c, hensured, hcontext⟩ := hserver.ensured
  simp only [readFromServer, hensured, hcontext, hserver.connected, if_true]

theorem attemptResourceRead_served (h : ReachesCache s a resourceUri route)
    (hserver : ReachesServer s a route) (payload : ReadResourceResult) :
    attemptResourceRead s { a with cached := none, served := .ok payload } resourceUri =
      .final (.ok (rewriteAppResourceResult a.managerAfter s payload route.serverID)) := by
  have hlookup : looksUpEarly s { a with cached := none, served := .ok payload } route = true :=
    h.lookup
  simp only [attemptResourceRead, h.resolved, h.permitted, hlookup, if_true]
  exact readFromServer_served hserver payload

end

/-- An attempt that does not ask for another one decides the request. -/
theorem handleResourceRead_of_final (s : ClientSession) (resourceUri : String)
    (attempts : Nat → ResourceReadAttempt) (retriesLeft : Nat)
    {result : Except HandlerError ReadResourceResult}
    (h : attemptResourceRead s (attempts 0) resourceUri = .final result) :
    handleResourceRead s resourceUri attempts retriesLeft = result := by
  cases retriesLeft with
  | zero => simp only [handleResourceRead, h, AttemptOutcome.final]
  | succ retriesLeft =>
    simp only [handleResourceRead, h, AttemptOutcome.final, Bool.false_eq_true, if_false]

/-- A client gets the same result for a payload whether it comes from the early lookup or
    from the server or `executeWithCache` exactly when there is nothing to rewrite in it: it has
    no contents, or the server's context is gone when the answer is there. -/
theorem cached_read_eq_served_read_iff (s : ClientSession) (a : ResourceReadAttempt)
    (resourceUri : String) (route : GatewayRoute) (payload : ReadResourceResult)
    (further : Nat → ResourceReadAttempt) (retriesLeft : Nat)
    (hcache : ReachesCache s a resourceUri route) (hserver : ReachesServer s a route) :
    handleResourceRead s resourceUri
        (fun i => if i = 0 then { a with cached := some payload } else further i) retriesLeft =
      handleResourceRead s resourceUri
        (fun i => if i = 0 then { a with cached := none, served := .ok payload } else further i)
        retriesLeft ↔
      payload.contents = [] ∨
        a.managerAfter.getServerContext route.serverID (some s.userId) = none := by
  have hfast := handleResourceRead_of_final s resourceUri
    (fun i => if i = 0 then { a with cached := some payload } else further i) retriesLeft
    (attemptResourceRead_cached hcache payload)
  have hslow := handleResourceRead_of_final s resourceUri
    (fun i => if i = 0 then { a with cached := none, served := .ok payload } else further i)
    retriesLeft (attemptResourceRead_served hcache hserver payload)
  rw [hfast, hslow, Except.ok.injEq]
  exact rewriteAppResourceResult_eq_self_iff a.managerAfter s payload route.serverID

/-! ### A server with one resource -/

/-- A server that offers `docs://readme` and one tool, `search`. -/
def docsContext : ServerContext CapabilityConfig where
  id := "1"
  serverID := "docs"
  serverEntity :=
    { serverId := "docs", serverName := "Docs", enabled := true, capabilities := .empty
      allowUserInput := false, configTemplate := none, authType := 0, category := 0
      publicAccess := true, anonymousAccess := false, cached := .none }
  status := .online
  capabilities := none
  capabilitiesConfig := .empty
  lists :=
    { tools := some [⟨"search", none, none, none, none⟩]
      resources := some [⟨"readme", "docs://readme", none⟩]
      resourceTemplates := some []
      prompts := some [] }
  cached := .none
  userId := none

def docsManager : ServerManager CapabilityConfig :=
  ⟨Dict.empty.set "docs" docsContext, .empty⟩

def docsSession : ClientSession := ⟨⟨false, "u1", .empty, .empty⟩⟩

/-- A policy with its defaults. -/
def defaultPolicy : ResolvedCachePolicy where
  enabled := true
  ttlSeconds := 300
  scope := .user
  admissionPolicy := .immediate
  admissionWindowSeconds := 300
  denyFields := []
  allowFields := none
  maxEntryBytes := 1024

def docsAttempt : ResourceReadAttempt where
  manager := docsManager
  cacheEnabled := true
  resolveResourcePolicy := fun _ _ => some defaultPolicy
  cached := none
  ensured := .ok docsManager
  connected := true
  served := .error "timeout"
  managerAfter := docsManager
  isReconnected := none

/-- An HTML page that names the server's tool. -/
def docsPage : ReadResourceResult where
  contents := [⟨"docs://readme", some "text/html", some "call search", []⟩]
  rest := []

theorem docs_reachesCache :
    ReachesCache docsSession docsAttempt "docs://readme" ⟨"docs", "docs://readme"⟩ where
  resolved := by decide +kernel
  permitted := by decide +kernel
  lookup := by decide +kernel

theorem docs_reachesServer :
    ReachesServer docsSession docsAttempt ⟨"docs", "docs://readme"⟩ where
  ensured := ⟨docsManager, docsContext, rfl, rfl⟩
  connected := rfl

theorem cached_read_eq_served_read_empty :
    handleResourceRead docsSession "docs://readme"
        (fun i => if i = 0 then { docsAttempt with cached := some ⟨[], []⟩ } else docsAttempt) 2 =
      handleResourceRead docsSession "docs://readme"
        (fun i => if i = 0 then { docsAttempt with cached := none, served := .ok ⟨[], []⟩ }
          else docsAttempt) 2 :=
  (cached_read_eq_served_read_iff docsSession docsAttempt "docs://readme" _ ⟨[], []⟩
    (fun _ => docsAttempt) 2 docs_reachesCache docs_reachesServer).mpr (Or.inl rfl)

/-- The contents that a client sees. -/
def seenContents (result : Except HandlerError ReadResourceResult) :
    Option (List (String × Option String)) :=
  result.toOption.map fun r => r.contents.map fun content => (content.uri, content.text)

/-- The early lookup hands out the names of the server, the other paths those of the gateway. -/
theorem cached_read_not_rewritten :
    (¬ ∀ (s : ClientSession) (a : ResourceReadAttempt) (resourceUri : String)
      (route : GatewayRoute) (payload : ReadResourceResult) (further : Nat → ResourceReadAttempt)
      (retriesLeft : Nat), ReachesCache s a resourceUri route → ReachesServer s a route →
      handleResourceRead s resourceUri
          (fun i => if i = 0 then { a with cached := some payload } else further i) retriesLeft =
        handleResourceRead s resourceUri
          (fun i => if i = 0 then { a with cached := none, served := .ok payload } else further i)
          retriesLeft) ∧
    seenContents (handleResourceRead docsSession "docs://readme"
      (fun i => if i = 0 then { docsAttempt with cached := some docsPage } else docsAttempt) 2) =
        some [("docs://readme", some "call search")] ∧
    seenContents (handleResourceRead docsSession "docs://readme"
      (fun i => if i = 0 then { docsAttempt with cached := none, served := .ok docsPage }
        else docsAttempt) 2) = some [("docs://readme_-_1", some "call search_-_1")] := by
  have hfast : seenContents (handleResourceRead docsSession "docs://readme"
      (fun i => if i = 0 then { docsAttempt with cached := some docsPage } else docsAttempt) 2) =
        some [("docs://readme", some "call search")] := by decide +kernel
  have hslow : seenContents (handleResourceRead docsSession "docs://readme"
      (fun i => if i = 0 then { docsAttempt with cached := none, served := .ok docsPage }
        else docsAttempt) 2) = some [("docs://readme_-_1", some "call search_-_1")] := by
    decide +kernel
  refine ⟨?_, hfast, hslow⟩
  intro hall
  have heq := hall docsSession docsAttempt "docs://readme" ⟨"docs", "docs://readme"⟩ docsPage
    (fun _ => docsAttempt) 2 docs_reachesCache docs_reachesServer
  rw [heq, hslow] at hfast
  exact absurd hfast (by decide)

/-! ## What a read may return -/

theorem attempt_of_handleResourceRead {s : ClientSession} {uri : String}
    {attempts : Nat → ResourceReadAttempt} {retriesLeft : Nat} {content : ReadResourceResult}
    (h : handleResourceRead s uri attempts retriesLeft = .ok content) :
    ∃ i ≤ retriesLeft, (attemptResourceRead s (attempts i) uri).result = .ok content := by
  induction retriesLeft generalizing attempts with
  | zero => exact ⟨0, Nat.le_refl 0, h⟩
  | succ retriesLeft ih =>
    rw [handleResourceRead] at h
    split at h
    · obtain ⟨i, hi, hresult⟩ := ih h
      exact ⟨i + 1, Nat.succ_le_succ hi, hresult⟩
    · exact ⟨0, Nat.zero_le _, h⟩

end PetaCore
