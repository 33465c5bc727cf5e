import PetaCore.Core.ProxySession
import PetaCore.Spec.ClientSession

/-!
# What the handlers of a session reach

Each handler finds a server and an item of it in its own way, makes its own check and then
answers from the cache or sends the request on. The checks of the resource handlers look up the
URI where the lists look up the name, completions are not checked at all, and no handler checks
again when the request is sent.

## Key results

- `deliverRequest_eq_some_iff`: what a handler delivers, in terms of what it finds and checks
- `disabled_resource_unreached_iff`: when a resource that is disabled under its name cannot be
  read or subscribed to; `disabled_resource_read`: one that can
- `sends_with_permission_iff`: when what a handler sends is permitted at that time;
  `completion_without_permission`: a completion that is not
-/

namespace PetaCore

open Run CapabilityState ClientSession ProxySession

/-! ## Handlers -/


namespace ProxySession

/-- What an item that a request is for is. -/
def LegacyRequest.kind : LegacyRequest → CapabilityKind
  | .toolCall _ => .tool
  | .resourceRead _ | .subscribe _ | .completeResource _ => .resource
  | .promptGet _ | .completePrompt _ => .prompt

/-- How a handler finds the server and the item. -/
def LegacyRequest.target (m : ServerManager CapabilityConfig) (s : ClientSession) :
    LegacyRequest → Option GatewayRoute
  | .toolCall name => s.resolveToolName m name
  | .resourceRead uri => s.resolveResourceUri m uri
  | .subscribe uri | .completeResource uri => s.parseName m uri
  | .promptGet name | .completePrompt name => s.parseName m name

/-- The check of a handler: the one for the item's kind, and none for completions. -/
def LegacyRequest.passes (m : ServerManager CapabilityConfig) (s : ClientSession)
    (route : GatewayRoute) : LegacyRequest → Bool
  | .toolCall _ => s.canUseTool m route.serverID route.originalName
  | .resourceRead _ | .subscribe _ => s.canAccessResource m route.serverID route.originalName
  | .promptGet _ => s.canUsePrompt m route.serverID route.originalName
  | .completePrompt _ | .completeResource _ => true

/-- What a handler does with a request that it lets through. -/
def proceed (s : ClientSession) (a : ForwardAttempt) (route : GatewayRoute) :
    LegacyRequest → Option Delivery
  | .toolCall _ | .resourceRead _ | .promptGet _ => deliver s a route
  | .subscribe _ =>
    match a.manager.getServerContext route.serverID (some s.userId) with
    | none => none
    | some c =>
      if ((c.capabilities.bind (·.resources)).bind (·.subscribe)) = some true ∧
          a.stopped = false ∧ a.connected = true then some (.forwarded route)
      else none
  | .completePrompt _ | .completeResource _ => forwardTo s a route

section

variable {s : ClientSession} {a : ForwardAttempt} {route : GatewayRoute} {d : Delivery}

/-- A handler delivers what it has found and let through. -/
theorem deliverRequest_eq_some_iff (req : LegacyRequest) :
    deliverRequest s a req = some d ↔
      ∃ route, req.target a.manager s = some route ∧ req.passes a.manager s route = true ∧
        proceed s a route req = some d := by
  cases req with
  | toolCall name =>
    simp only [deliverRequest, deliverToolCall, LegacyRequest.target, LegacyRequest.passes,
      proceed]
    cases s.resolveToolName a.manager name with
    | none | some _ => simp
  | resourceRead uri =>
    simp only [deliverRequest, deliverResourceRead, LegacyRequest.target, LegacyRequest.passes,
      proceed]
    cases s.resolveResourceUri a.manager uri with
    | none | some _ => simp
  | subscribe uri =>
    simp only [deliverRequest, deliverSubscribe, LegacyRequest.target, LegacyRequest.passes,
      proceed]
    cases s.parseName a.manager uri with
    | none => simp
    | some route =>
      constructor
      · intro h
        obtain ⟨hcheck, hproceed⟩ := Option.ite_none_right_eq_some.mp h
        exact ⟨route, rfl, hcheck, hproceed⟩
      · intro h
        obtain ⟨route', hroute, hcheck, hproceed⟩ := h
        cases hroute
        exact Option.ite_none_right_eq_some.mpr ⟨hcheck, hproceed⟩
  | promptGet name =>
    simp only [deliverRequest, deliverPromptGet, LegacyRequest.target, LegacyRequest.passes,
      proceed]
    cases s.parseName a.manager name with
    | none | some _ => simp
  | completePrompt name | completeResource name =>
    simp only [deliverRequest, deliverComplete, LegacyRequest.target, LegacyRequest.passes, proceed]
    cases s.parseName a.manager name with
    | none | some _ => simp

theorem forwardTo_eq_some_iff :
    forwardTo s a route = some d ↔
      d = .forwarded route ∧ a.connected = true ∧ a.stopped = false ∧
        ∃ m c, a.ensured = .ok m ∧ m.getServerContext route.serverID (some s.userId) = some c := by
  unfold forwardTo
  cases hensured : a.ensured with
  | error e => simp
  | ok m =>
    cases hc : m.getServerContext route.serverID (some s.userId) with
    | none => simp [hc]
    | some c =>
      simp only [hc]
      constructor
      · intro h
        split at h
        · rename_i hopen
          simp only [Bool.and_eq_true, Bool.not_eq_true'] at hopen
          exact ⟨(Option.some.inj h).symm, hopen.1, hopen.2, m, c, rfl, hc⟩
        · cases h
      · intro h
        obtain ⟨rfl, hconnected, hstopped, _⟩ := h
        simp [hconnected, hstopped]

/-- What is delivered is the item that was found. -/
theorem route_of_proceed {req : LegacyRequest} (h : proceed s a route req = some d) :
    d.route = route := by
  have hforward : forwardTo s a route = some d → d.route = route := by
    intro h
    rw [(forwardTo_eq_some_iff.mp h).1]
    rfl
  have hdeliver : deliver s a route = some d → d.route = route := by
    intro h
    unfold deliver at h
    split at h
    · rw [← Option.some.inj h]
      rfl
    · exact hforward h
  cases req with
  | toolCall _ | resourceRead _ | promptGet _ => exact hdeliver h
  | completePrompt _ | completeResource _ => exact hforward h
  | subscribe uri =>
    simp only [proceed] at h
    split at h
    · cases h
    · split at h
      · rw [← Option.some.inj h]
        rfl
      · cases h

end

/-- A read that ends with content was answered from the cache or sent on. -/
theorem delivers_of_attemptResourceRead {s : ClientSession} {a : ResourceReadAttempt}
    {uri : String} {content : ReadResourceResult}
    (h : (attemptResourceRead s a uri).result = .ok content) :
    ∃ cached, (deliverResourceRead s
      ⟨a.manager, cached, false, a.ensured, a.connected⟩ uri).isSome = true := by
  unfold attemptResourceRead at h
  unfold deliverResourceRead
  cases hroute : s.resolveResourceUri a.manager uri with
  | none =>
    rw [hroute] at h
    cases h
  | some route =>
    simp only [hroute] at h
    by_cases hcheck : s.canAccessResource a.manager route.serverID route.originalName = true
    · simp only [hcheck, if_true] at h
      have hserver : (readFromServer s a uri route).result = .ok content →
          (deliver s ⟨a.manager, false, false, a.ensured, a.connected⟩ route).isSome = true := by
        intro h
        unfold readFromServer at h
        simp only [deliver, forwardTo]
        cases hensured : a.ensured with
        | error e =>
          rw [hensured] at h
          cases h
        | ok m =>
          simp only [hensured] at h
          cases hc : m.getServerContext route.serverID (some s.userId) with
          | none =>
            rw [hc] at h
            cases h
          | some c =>
            simp only [hc] at h ⊢
            cases hconnected : a.connected with
            | true => rfl
            | false =>
              rw [hconnected] at h
              cases h
      split at h
      · cases hcached : a.cached with
        | some payload =>
          refine ⟨true, ?_⟩
          simp [hroute, hcheck, deliver]
        | none =>
          rw [hcached] at h
          refine ⟨false, ?_⟩
          simp only [hroute, hcheck, if_true]
          exact hserver h
      · refine ⟨false, ?_⟩
        simp only [hroute, hcheck, if_true]
        exact hserver h
    · simp only [hcheck] at h
      cases h

end ProxySession

/-! ## Resources that are disabled under their names -/

/-- A resource of a server that one of the layers disables under its name. -/
structure DisabledResource (s : ClientSession) (c : ServerContext CapabilityConfig)
    (r : Resource) : Prop where
  offered : r ∈ c.resourcesData.getD []
  disabled : configAllows c .resource r.name = false ∨
    (c.serverEntity.allowUserInput = false ∧ adminAllows s c .resource r.name = false) ∨
    userAllows s c .resource r.name = false

/-- No read and no subscription, whatever URI it has, delivers the resource of a route. -/
def Unreached (m : ServerManager CapabilityConfig) (s : ClientSession) (route : GatewayRoute) :
    Prop :=
  ∀ a : ForwardAttempt, a.manager = m → ∀ uri d,
    deliverResourceRead s a uri = some d ∨ deliverSubscribe s a uri = some d → d.route ≠ route

/-- An attempt that nothing gets in the way of. -/
def ProxySession.ForwardAttempt.undisturbed (m : ServerManager CapabilityConfig) : ForwardAttempt :=
  ⟨m, false, false, .ok m, true⟩

/-- A resource cannot be reached exactly when its handlers' check rejects its URI: the URI that
    is given out for it always leads to it. -/
theorem ContextsOk.unreached_iff {m : ServerManager CapabilityConfig} {nextId : Nat}
    (hm : ContextsOk m nextId) {s : ClientSession} (hs : s.HasUser m) {serverID : String}
    {c : ServerContext CapabilityConfig}
    (hc : m.getServerContext serverID (some s.userId) = some c) (uri : String) :
    Unreached m s ⟨serverID, uri⟩ ↔
      s.canAccessServer m serverID = false ∨ ¬ CheckedLayersAllow s c .resource uri := by
  have hcheck := canUse_iff hc .resource uri
  constructor
  · intro hunreached
    by_cases hpasses : canUse .resource m s serverID uri = true
    · -- the URI that the lists give out is read
      obtain ⟨hserver, l, hl, hown⟩ := hm.ownContext hs hc
      have hparsed : s.parseName m (generateNewName c.id uri) = some ⟨serverID, uri⟩ := by
        rw [hm.parseName_generateNewName hl hown, hserver]
      have hforwarded : forwardTo s (.undisturbed m) ⟨serverID, uri⟩ =
          some (.forwarded ⟨serverID, uri⟩) :=
        forwardTo_eq_some_iff.mpr ⟨rfl, rfl, rfl, m, c, rfl, hc⟩
      have hread : deliverResourceRead s (.undisturbed m) (generateNewName c.id uri) =
          some (.forwarded ⟨serverID, uri⟩) := by
        refine (deliverRequest_eq_some_iff (a := .undisturbed m)
          (.resourceRead (generateNewName c.id uri))).mpr ⟨⟨serverID, uri⟩, ?_, hpasses,
            hforwarded⟩
        show s.resolveResourceUri m (generateNewName c.id uri) = some ⟨serverID, uri⟩
        unfold resolveResourceUri
        rw [hparsed]
      exact absurd rfl (hunreached (.undisturbed m) rfl _ _ (.inl hread))
    · rw [hcheck, not_and_or, Bool.not_eq_true] at hpasses
      exact hpasses
  · intro hcond a ha resourceUri d hdelivered hroute
    have hpasses : canUse .resource m s serverID uri = true := by
      cases hdelivered with
      | inl hread =>
        obtain ⟨route, _, hpasses, hproceed⟩ :=
          (deliverRequest_eq_some_iff (.resourceRead resourceUri)).mp hread
        obtain rfl := (route_of_proceed hproceed).symm.trans hroute
        rw [ha] at hpasses
        exact hpasses
      | inr hsubscribed =>
        obtain ⟨route, _, hpasses, hproceed⟩ :=
          (deliverRequest_eq_some_iff (.subscribe resourceUri)).mp hsubscribed
        obtain rfl := (route_of_proceed hproceed).symm.trans hroute
        rw [ha] at hpasses
        exact hpasses
    obtain ⟨haccess, hlayers⟩ := hcheck.mp hpasses
    cases hcond with
    | inl hdenied => cases hdenied.symm.trans haccess
    | inr hblocked => exact hblocked hlayers

/-- In every state that is reached, a resource that a layer disables under its name cannot be
    read or subscribed to, exactly when the session cannot access the server or a layer
    disables the resource's URI as well. -/
theorem disabled_resource_unreached_iff
    {trs : List (Transition CapabilityState CapabilityAction)} {st : CapabilityState}
    (hrun : IsRun CapabilityState.step CapabilityState.init trs st) {s : ClientSession}
    (hs : s.HasUser st.view) {serverID : String} {c : ServerContext CapabilityConfig}
    (hc : st.view.getServerContext serverID (some s.userId) = some c) (r : Resource) :
    (DisabledResource s c r → Unreached st.view s ⟨serverID, r.uri⟩) ↔
      (DisabledResource s c r →
        s.canAccessServer st.view serverID = false ∨ ¬ CheckedLayersAllow s c .resource r.uri) := by
  apply imp_congr_right
  intro _
  exact (contextsOk_of_run hrun).unreached_iff hs hc r.uri

/-! ### A secret -/

def secret : Resource := ⟨"secret", "file:///secret", none⟩

/-- A server whose configuration disables the entries under some keys. -/
def hideResources (keys : List String) : List CapabilityAction :=
  [.saveServer { filesServer with
      capabilities := ⟨.empty,
        keys.foldl (fun d key => d.set key ⟨some false, none, none⟩) .empty, .empty⟩ },
    .initializeManagedServerContext "files",
    .refresh "files" none .online none ⟨some [], some [secret], some [], some []⟩]

theorem disabled_resource_unreached_bothKeys :
    ∃ st c, exec CapabilityState.step CapabilityState.init
        (hideResources [secret.name, secret.uri]) = some st ∧
      st.view.getServerContext "files" (some bobSession.userId) = some c ∧
      DisabledResource bobSession c secret ∧ bobSession.canAccessServer st.view "files" = true ∧
      Unreached st.view bobSession ⟨"files", secret.uri⟩ := by
  have hobs : (exec CapabilityState.step CapabilityState.init
      (hideResources [secret.name, secret.uri])).map (fun st =>
        ((st.view.getServerContext "files" (some bobSession.userId)).map fun c =>
          (decide (secret ∈ c.resourcesData.getD []), configAllows c .resource secret.name,
            configAllows c .resource secret.uri),
          bobSession.canAccessServer st.view "files")) =
      some (some (true, false, false), true) := by
    decide +kernel
  obtain ⟨st, hst, hobs⟩ := Option.map_eq_some_iff.mp hobs
  obtain ⟨hcontext, haccess⟩ := Prod.mk.inj hobs
  obtain ⟨c, hc, hobs⟩ := Option.map_eq_some_iff.mp hcontext
  simp only [Prod.mk.injEq, decide_eq_true_eq] at hobs
  obtain ⟨hoffered, hname, huri⟩ := hobs
  have hdisabled : DisabledResource bobSession c secret := ⟨hoffered, .inl hname⟩
  refine ⟨st, c, hst, hc, hdisabled, haccess, ?_⟩
  refine (disabled_resource_unreached_iff (isRun_trace _ _ _ hst) (.inl ⟨bob, rfl⟩) hc
    secret).mpr ?_ hdisabled
  intro _
  exact .inr fun hlayers => by cases huri.symm.trans hlayers.1

theorem disabled_resource_read :
    (¬ ∀ (trs : List (Transition CapabilityState CapabilityAction)) (st : CapabilityState),
      IsRun CapabilityState.step CapabilityState.init trs st →
      ∀ (s : ClientSession), s.HasUser st.view → ∀ serverID c,
      st.view.getServerContext serverID (some s.userId) = some c →
      ∀ r, DisabledResource s c r → Unreached st.view s ⟨serverID, r.uri⟩) ∧
    (exec CapabilityState.step CapabilityState.init (hideResources [secret.name])).map (fun st =>
      (bobSession.canAccessResource st.view "files" secret.name,
        deliverResourceRead bobSession (.undisturbed st.view) "file:///secret_-_1")) =
      some (false, some (.forwarded ⟨"files", "file:///secret"⟩)) := by
  have hread : (exec CapabilityState.step CapabilityState.init
      (hideResources [secret.name])).map (fun st =>
        (bobSession.canAccessResource st.view "files" secret.name,
          deliverResourceRead bobSession (.undisturbed st.view) "file:///secret_-_1")) =
      some (false, some (.forwarded ⟨"files", "file:///secret"⟩)) := by
    decide +kernel
  refine ⟨?_, hread⟩
  intro hall
  have hobs : (exec CapabilityState.step CapabilityState.init
      (hideResources [secret.name])).map (fun st =>
        ((st.view.getServerContext "files" (some bobSession.userId)).map fun c =>
          (decide (secret ∈ c.resourcesData.getD []), configAllows c .resource secret.name))) =
      some (some (true, false)) := by
    decide +kernel
  obtain ⟨st, hst, hobs⟩ := Option.map_eq_some_iff.mp hobs
  obtain ⟨c, hc, hobs⟩ := Option.map_eq_some_iff.mp hobs
  simp only [Prod.mk.injEq, decide_eq_true_eq] at hobs
  rw [hst] at hread
  have hdelivered := (Prod.mk.inj (Option.some.inj hread)).2
  exact hall _ st (isRun_trace _ _ _ hst) bobSession (.inl ⟨bob, rfl⟩) "files" c hc secret
    ⟨hobs.1, .inl hobs.2⟩ (.undisturbed st.view) rfl _ _ (.inl hdelivered) rfl

/-! ## Permission at the time of sending -/

/-- The names of the resources and templates of a server with a URI. -/
def resourceNames (c : ServerContext CapabilityConfig) (uri : String) : List String :=
  ((c.resourcesData.getD []).filter (·.uri == uri)).map (·.name) ++
    ((c.resourceTemplatesData.getD []).filter (·.uriTemplate == uri)).map (·.name)

/-- The names under which the layers know what a handler sends. -/
def itemNames (c : ServerContext CapabilityConfig) (kind : CapabilityKind) (key : String) :
    List String :=
  match kind with
  | .tool | .prompt => [key]
  | .resource => resourceNames c key

/-- The three layers leave an item enabled. -/
def LayersAllow (s : ClientSession) (c : ServerContext CapabilityConfig) (kind : CapabilityKind)
    (name : String) : Prop :=
  configAllows c kind name = true ∧ adminAllows s c kind name = true ∧
    userAllows s c kind name = true

/-- The contexts, and the session with its permissions and preferences, at some time. -/
structure Moment where
  manager : ServerManager CapabilityConfig
  session : ClientSession

namespace Moment

/-- The context of a server for the session. -/
def context (t : Moment) (serverID : String) : Option (ServerContext CapabilityConfig) :=
  t.manager.getServerContext serverID (some t.session.userId)

/-- The session can access the server of a route, whose item the three layers leave enabled. -/
structure Permits (t : Moment) (kind : CapabilityKind) (route : GatewayRoute) : Prop where
  access : t.session.canAccessServer t.manager route.serverID = true
  enabled : ∀ c, t.context route.serverID = some c →
    ∀ name ∈ itemNames c kind route.originalName, LayersAllow t.session c kind name

/-- The administrator leaves an item of a server with user input enabled, which no check asks. -/
def AdminAllowsInput (t : Moment) (kind : CapabilityKind) (route : GatewayRoute) : Prop :=
  ∀ c, t.context route.serverID = some c → c.serverEntity.allowUserInput = true →
    adminAllows t.session c kind route.originalName = true

/-- A server that takes subscriptions. -/
def subscribable (t : Moment) (serverID : String) : Bool :=
  ((((t.context serverID).bind (·.capabilities)).bind (·.resources)).bind (·.subscribe)) ==
    some true

theorem exists_context {t : Moment} {serverID : String}
    (h : t.session.canAccessServer t.manager serverID = true) :
    ∃ c, t.context serverID = some c := by
  unfold canAccessServer at h
  split at h
  · cases h
  · rename_i c hc
    exact ⟨c, hc⟩

/-- For an item that is known by the name that is checked, the check and what it leaves out are
    what is asked for. -/
theorem permits_iff {t : Moment} {kind : CapabilityKind} {route : GatewayRoute}
    (hnames : ∀ c, itemNames c kind route.originalName = [route.originalName]) :
    t.Permits kind route ↔
      canUse kind t.manager t.session route.serverID route.originalName = true ∧
        t.AdminAllowsInput kind route := by
  constructor
  · intro h
    obtain ⟨c, hc⟩ := exists_context h.access
    have hlayers : ∀ c, t.context route.serverID = some c →
        LayersAllow t.session c kind route.originalName := by
      intro c hc
      refine h.enabled c hc _ ?_
      rw [hnames]
      exact List.mem_singleton_self _
    obtain ⟨hconfig, hadmin, huser⟩ := hlayers c hc
    refine ⟨(canUse_iff hc kind _).mpr ⟨h.access, hconfig, .inr hadmin, huser⟩, ?_⟩
    intro c hc _
    exact (hlayers c hc).2.1
  · intro h
    obtain ⟨hpasses, hinput⟩ := h
    refine ⟨canAccessServer_of_canUse hpasses, ?_⟩
    intro c hc name hname
    rw [hnames, List.mem_singleton] at hname
    obtain ⟨_, hconfig, hadmin, huser⟩ := (canUse_iff hc kind _).mp hpasses
    rw [hname]
    refine ⟨hconfig, ?_, huser⟩
    cases hadmin with
    | inl hallows => exact hinput c hc hallows
    | inr hadmin => exact hadmin

end Moment

/-- When a request is sent: a subscription at once after the check, everything else later. -/
def sentAt (checked sent : Moment) : LegacyRequest → Moment
  | .subscribe _ => checked
  | _ => sent

/-- Whatever the handler sends for a request that comes in at `checked` is permitted at the time
    it is sent. In between, the server has been started and looked up in `ensured`. -/
def SendsWithPermission (checked : Moment) (ensured : ServerManager CapabilityConfig)
    (sent : Moment) (req : LegacyRequest) : Prop :=
  ∀ (a : ForwardAttempt) (route : GatewayRoute), a.manager = checked.manager →
    a.ensured = .ok ensured → deliverRequest checked.session a req = some (.forwarded route) →
    (sentAt checked sent req).Permits req.kind route

/-- The server of a route is there to send a request to. -/
def Available (checked : Moment) (ensured : ServerManager CapabilityConfig)
    (route : GatewayRoute) : LegacyRequest → Prop
  | .subscribe _ => checked.subscribable route.serverID = true
  | _ => ∃ c, ensured.getServerContext route.serverID (some checked.session.userId) = some c

/-- What the check of a handler leaves open, for the item that it has found and let through. -/
def LeftOpenAllows (checked sent : Moment) (route : GatewayRoute) : LegacyRequest → Prop
  | .toolCall _ =>
    sent.session.canUseTool sent.manager route.serverID route.originalName = true ∧
      sent.AdminAllowsInput .tool route
  | .promptGet _ =>
    sent.session.canUsePrompt sent.manager route.serverID route.originalName = true ∧
      sent.AdminAllowsInput .prompt route
  | .resourceRead _ => sent.Permits .resource route
  | .subscribe _ =>
    ∀ c, checked.context route.serverID = some c →
      ∀ name ∈ resourceNames c route.originalName, LayersAllow checked.session c .resource name
  | .completePrompt _ => sent.Permits .prompt route
  | .completeResource _ => sent.Permits .resource route

section

variable {checked sent : Moment} {ensured : ServerManager CapabilityConfig} {req : LegacyRequest}
  {route : GatewayRoute}

theorem available_of_proceed {a : ForwardAttempt} (ha : a.manager = checked.manager)
    (hensured : a.ensured = .ok ensured)
    (h : proceed checked.session a route req = some (.forwarded route)) :
    Available checked ensured route req := by
  have hforward : forwardTo checked.session a route = some (.forwarded route) →
      ∃ c, ensured.getServerContext route.serverID (some checked.session.userId) = some c := by
    intro h
    obtain ⟨_, _, _, m, c, hm, hc⟩ := forwardTo_eq_some_iff.mp h
    obtain rfl := Except.ok.inj (hensured.symm.trans hm)
    exact ⟨c, hc⟩
  have hdeliver : deliver checked.session a route = some (.forwarded route) →
      ∃ c, ensured.getServerContext route.serverID (some checked.session.userId) = some c := by
    intro h
    unfold deliver at h
    split at h
    · cases h
    · exact hforward h
  cases req with
  | toolCall _ | resourceRead _ | promptGet _ => exact hdeliver h
  | completePrompt _ | completeResource _ => exact hforward h
  | subscribe uri =>
    simp only [proceed, ha] at h
    split at h
    · cases h
    · rename_i c hc
      split at h
      · rename_i hopen
        show checked.subscribable route.serverID = true
        simp only [Moment.subscribable, Moment.context, hc, Option.bind_some, beq_iff_eq]
        exact hopen.1
      · cases h

/-- An attempt in which nothing gets in the way sends the request. -/
theorem proceed_of_available (h : Available checked ensured route req) :
    proceed checked.session ⟨checked.manager, false, false, .ok ensured, true⟩ route req =
      some (.forwarded route) := by
  have hforward : (∃ c, ensured.getServerContext route.serverID (some checked.session.userId) =
      some c) → forwardTo checked.session ⟨checked.manager, false, false, .ok ensured, true⟩ route =
        some (.forwarded route) := by
    intro h
    obtain ⟨c, hc⟩ := h
    exact forwardTo_eq_some_iff.mpr ⟨rfl, rfl, rfl, ensured, c, rfl, hc⟩
  cases req with
  | toolCall _ | resourceRead _ | promptGet _ | completePrompt _
  | completeResource _ => exact hforward h
  | subscribe uri =>
    have hsubscribe : checked.subscribable route.serverID = true := h
    unfold Moment.subscribable Moment.context at hsubscribe
    simp only [proceed]
    cases hc : checked.manager.getServerContext route.serverID (some checked.session.userId) with
    | none =>
      rw [hc] at hsubscribe
      cases hsubscribe
    | some c =>
      simp only [hc, Option.bind_some, beq_iff_eq] at hsubscribe
      simp [hsubscribe]

/-- What a handler sends. -/
theorem sends_iff :
    (∃ a : ForwardAttempt, a.manager = checked.manager ∧ a.ensured = .ok ensured ∧
      deliverRequest checked.session a req = some (.forwarded route)) ↔
    req.target checked.manager checked.session = some route ∧
      req.passes checked.manager checked.session route = true ∧
      Available checked ensured route req := by
  constructor
  · intro h
    obtain ⟨a, ha, hensured, h⟩ := h
    obtain ⟨route', htarget, hpasses, hproceed⟩ := (deliverRequest_eq_some_iff req).mp h
    have hroute : route = route' := route_of_proceed hproceed
    subst hroute
    rw [ha] at htarget hpasses
    exact ⟨htarget, hpasses, available_of_proceed ha hensured hproceed⟩
  · intro h
    obtain ⟨htarget, hpasses, havailable⟩ := h
    refine ⟨⟨checked.manager, false, false, .ok ensured, true⟩, rfl, rfl, ?_⟩
    exact (deliverRequest_eq_some_iff req).mpr
      ⟨route, htarget, hpasses, proceed_of_available havailable⟩

/-- For what a handler has let through, what it leaves open decides. -/
theorem permits_iff_leftOpenAllows
    (hpasses : req.passes checked.manager checked.session route = true) :
    (sentAt checked sent req).Permits req.kind route ↔ LeftOpenAllows checked sent route req := by
  cases req with
  | toolCall _ | promptGet _ => exact Moment.permits_iff fun _ => rfl
  | resourceRead _ | completePrompt _ | completeResource _ => exact Iff.rfl
  | subscribe uri =>
    constructor
    · intro h
      exact h.enabled
    · intro h
      exact ⟨canAccessServer_of_canUse hpasses, h⟩

end

/-- Whatever a handler sends is permitted at that time, exactly when, for the item that it has
    found and let through on a server that is there: a check of a tool or a prompt would still
    pass, and the administrator leaves the item enabled also on a server with user input; a
    resource is enabled under its names and not under its URI only; and the item of a completion
    is permitted, although nothing has been checked. -/
theorem sends_with_permission_iff (checked : Moment) (ensured : ServerManager CapabilityConfig)
    (sent : Moment) (req : LegacyRequest) :
    SendsWithPermission checked ensured sent req ↔
      ∀ route, req.target checked.manager checked.session = some route →
        req.passes checked.manager checked.session route = true →
        Available checked ensured route req → LeftOpenAllows checked sent route req := by
  constructor
  · intro h route htarget hpasses havailable
    obtain ⟨a, ha, hensured, hsent⟩ := sends_iff.mpr ⟨htarget, hpasses, havailable⟩
    exact (permits_iff_leftOpenAllows hpasses).mp (h a route ha hensured hsent)
  · intro h a route ha hensured hsent
    obtain ⟨htarget, hpasses, havailable⟩ := sends_iff.mp ⟨a, ha, hensured, hsent⟩
    exact (permits_iff_leftOpenAllows hpasses).mpr (h route htarget hpasses havailable)

/-! ### Completions -/

/-- The administrator has taken the whole server from the user. -/
def filesOff : Permissions :=
  Dict.empty.set "files" {
    tools := .empty
    resources := .empty
    prompts := .empty
    enabled := some false
    serverName := "Files"
    allowUserInput := false
    authType := 1
    category := none
    configTemplate := ""
    configured := true
    status := none }

def aliceBanned : ClientSession := ⟨false, alice.value, filesOff, .empty⟩

/-- A completion is sent to a server that the session cannot access. -/
theorem completion_without_permission :
    (¬ ∀ (trs : List (Transition CapabilityState CapabilityAction)) (st : CapabilityState),
      IsRun CapabilityState.step CapabilityState.init trs st →
      ∀ (s : ClientSession) (req : LegacyRequest),
        SendsWithPermission ⟨st.view, s⟩ st.view ⟨st.view, s⟩ req) ∧
    (exec CapabilityState.step CapabilityState.init (shareFiles filesLists)).map (fun st =>
      (aliceBanned.canAccessServer st.view "files",
        deliverRequest aliceBanned (.undisturbed st.view) (.completePrompt "draft_-_1"))) =
      some (false, some (.forwarded ⟨"files", "draft"⟩)) := by
  have hobs : (exec CapabilityState.step CapabilityState.init (shareFiles filesLists)).map
      (fun st => (aliceBanned.canAccessServer st.view "files",
        deliverRequest aliceBanned (.undisturbed st.view) (.completePrompt "draft_-_1"))) =
      some (false, some (.forwarded ⟨"files", "draft"⟩)) := by
    decide +kernel
  refine ⟨?_, hobs⟩
  intro hall
  obtain ⟨st, hst, hobs⟩ := Option.map_eq_some_iff.mp hobs
  obtain ⟨hdenied, hsent⟩ := Prod.mk.inj hobs
  have hpermits := hall _ st (isRun_trace _ _ _ hst) aliceBanned (.completePrompt "draft_-_1")
    (.undisturbed st.view) _ rfl rfl hsent
  cases hdenied.symm.trans hpermits.access

end PetaCore
