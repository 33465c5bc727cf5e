import PetaCore.Core.ServerConnection

/-!
# When a start connects, and what a failed one leaves

A start makes one attempt after another; each is made only when the ones before it have not
connected, so that at most one of them connects. The specifications of the parts of a start say
both how a part can end and which outcomes make it end so.

## Key results

- `Permitted`: the attempts in their documented order
- `start_spec`: how a start ends
- `connects_first_permitted`: when a start ends as its attempts say
- `failed_start_leaks`: what a failed start leaves open
-/

namespace PetaCore

open Std.Do DownstreamTransportFactory

set_option mvcgen.warning false

namespace StartOutcomes

variable {preference : DownstreamMcpProtocolPreference} {client : StartClient} {config : Json}
  {t : DownstreamTransportType} {s₀ s₁ s : StartState}

variable {o : StartOutcomes}

/-! ## The outcomes of the steps -/

/-- The transport's type is in the row, or is saved. -/
def Caches (o : StartOutcomes) (s : StartState) (client : StartClient)
    (transportType : DownstreamTransportType) : Prop :=
  s.transportType = some transportType ∨ o.saveTransportType client = .ok ()

/-- The server has a name, or it is saved. -/
def Fills (o : StartOutcomes) (s : StartState) (client : StartClient) : Prop :=
  o.filledName client s.serverName = none ∨ o.saveServerName client = .ok ()

/-- The ping, which a start on the modern client does not make. -/
def Pings (o : StartOutcomes) (client : StartClient) : Prop :=
  client = .modern ∨ o.ping client = .ok ()

def UpdatesCapabilities (o : StartOutcomes) (client : StartClient) : Prop :=
  o.supportsResourceSubscriptions client = false ∨ o.restoreResourceSubscriptions client = .ok ()

def Logs (o : StartOutcomes) (client : StartClient) : Prop :=
  o.logServerLifecycle client = .ok ()

/-- All steps after a connection. -/
structure Completes (o : StartOutcomes) (s : StartState) (client : StartClient)
    (transportType : DownstreamTransportType) : Prop where
  caches : o.Caches s client transportType
  fills : o.Fills s client
  pings : o.Pings client
  updates : o.UpdatesCapabilities client
  logs : o.Logs client

/-! ## The parts of a start -/

@[spec] theorem connectClient_spec (client : StartClient) (s₀ : StartState) :
    ⦃fun s => ⌜s = s₀⌝⦄ o.connectClient client
    ⦃post⟨fun _ s => ⌜o.connect client = .ok () ∧ s = { s₀ with opened := client :: s₀.opened }⌝,
      fun error s => ⌜o.connect client = .error error ∧ s = s₀⌝⟩⦄ := by
  mvcgen [connectClient]
  case vc1.post.success hs _ _ h _ =>
    obtain ⟨hconnect, rfl⟩ := h
    subst hs
    exact ⟨hconnect, rfl⟩
  case vc2.post.except.handle hs _ _ => exact fun herror h => ⟨herror, h.trans hs⟩

/-- A step that leaves the lists of clients alone. -/
structure SameClients (s s' : StartState) : Prop where
  opened : s'.opened = s.opened
  closed : s'.closed = s.closed

theorem SameClients.trans {s s' s'' : StartState} (h : SameClients s s')
    (h' : SameClients s' s'') : SameClients s s'' :=
  ⟨h'.opened.trans h.opened, h'.closed.trans h.closed⟩

@[spec] theorem cacheTransportType_spec (client : StartClient) (t : DownstreamTransportType)
    (s₀ : StartState) :
    ⦃fun s => ⌜s = s₀⌝⦄ o.cacheTransportType client t
    ⦃post⟨fun _ s => ⌜o.Caches s₀ client t ∧ s.serverName = s₀.serverName ∧ SameClients s₀ s⌝,
      fun _ s => ⌜¬o.Caches s₀ client t ∧ SameClients s₀ s⌝⟩⦄ := by
  mvcgen [cacheTransportType]
  case vc1.isTrue.post.success hs _ _ _ h _ =>
    obtain ⟨hsave, rfl⟩ := h
    subst hs
    exact ⟨.inr hsave, rfl, rfl, rfl⟩
  case vc2.isTrue.post.except.handle hs hother _ _ =>
    intro herror hsame
    subst hs hsame
    refine ⟨?_, rfl, rfl⟩
    rintro (hcached | hsave)
    · exact hother hcached
    · cases herror.symm.trans hsave
  case vc3.isFalse hs hcached =>
    subst hs
    exact ⟨.inl (not_not.mp hcached), rfl, rfl, rfl⟩

@[spec] theorem fillServerName_spec (client : StartClient) (s₀ : StartState) :
    ⦃fun s => ⌜s = s₀⌝⦄ o.fillServerName client
    ⦃post⟨fun _ s => ⌜o.Fills s₀ client ∧ SameClients s₀ s⌝,
      fun _ s => ⌜¬o.Fills s₀ client ∧ SameClients s₀ s⌝⟩⦄ := by
  mvcgen [fillServerName]
  case vc1.h_1 hs hname =>
    subst hs
    exact ⟨.inl hname, rfl, rfl⟩
  case vc2.h_2.post.success hs _ _ _ _ h _ =>
    obtain ⟨hsave, rfl⟩ := h
    subst hs
    exact ⟨.inr hsave, rfl, rfl⟩
  case vc3.h_2.post.except.handle hs _ hname _ _ =>
    intro herror hsame
    subst hs hsame
    refine ⟨?_, rfl, rfl⟩
    rintro (hnone | hsave)
    · cases hnone.symm.trans hname
    · cases herror.symm.trans hsave

@[spec] theorem updateServerCapabilities_spec (client : StartClient) (s₀ : StartState) :
    ⦃fun s => ⌜s = s₀⌝⦄ o.updateServerCapabilities client
    ⦃post⟨fun _ s => ⌜o.UpdatesCapabilities client ∧ s = s₀⌝,
      fun _ s => ⌜¬o.UpdatesCapabilities client ∧ s = s₀⌝⟩⦄ := by
  mvcgen [updateServerCapabilities]
  case vc1.isTrue.post.success hs _ _ => exact fun hrestore h => ⟨.inr hrestore, h.trans hs⟩
  case vc2.isTrue.post.except.handle hsupports _ hs _ _ =>
    intro herror h
    refine ⟨?_, h.trans hs⟩
    rintro (hnone | hrestore)
    · exact absurd hsupports (by simp [hnone])
    · cases herror.symm.trans hrestore
  case vc3.isFalse hnone _ hs => exact ⟨.inl (Bool.not_eq_true _ ▸ hnone), hs⟩

theorem fills_congr {s s' : StartState} (h : s'.serverName = s.serverName) :
    o.Fills s' client ↔ o.Fills s client := by
  rw [Fills, Fills, h]

/-- The steps after a connection read the row of the server, and no other field of the state. -/
theorem Completes.congr {s s' : StartState} (h : o.Completes s client t)
    (htype : s'.transportType = s.transportType) (hname : s'.serverName = s.serverName) :
    o.Completes s' client t :=
  { caches := by simpa only [Caches, htype] using h.caches
    fills := (fills_congr hname).mpr h.fills
    pings := h.pings
    updates := h.updates
    logs := h.logs }

/-- The context is online with a client. -/
structure OnlineOn (s : StartState) (client : StartClient) : Prop where
  status : s.status = .online
  connection : s.connection = some client

/-- A client has connected and the start is done. -/
structure Connected (o : StartOutcomes) (s₀ s : StartState) (client : StartClient)
    (transportType : DownstreamTransportType) : Prop where
  connect : o.connect client = .ok ()
  completes : o.Completes s₀ client transportType
  online : OnlineOn s client
  clients : SameClients { s₀ with opened := client :: s₀.opened } s

/-- A client has connected and a later step has failed. -/
structure Dropped (o : StartOutcomes) (s₀ s : StartState) (client : StartClient)
    (transportType : DownstreamTransportType) : Prop where
  connect : o.connect client = .ok ()
  fails : ¬o.Completes s₀ client transportType
  clients : SameClients { s₀ with opened := client :: s₀.opened } s

@[spec] theorem createModernHttpServerConnection_spec (s₀ : StartState) :
    ⦃fun s => ⌜s = s₀⌝⦄ o.createModernHttpServerConnection
    ⦃post⟨fun _ s => ⌜o.Connected s₀ s .modern .http⌝,
      fun error s => ⌜o.connect .modern = .error error ∧ s = s₀ ∨ o.Dropped s₀ s .modern .http⌝⟩⦄
    := by
  mvcgen [createModernHttpServerConnection]
  case vc1 hs _ _ hconnect _ _ hcache _ _ hfill _ _ _ hupdate _ _ _ =>
    intro hlog hlast
    obtain ⟨hconnect, rfl⟩ := hconnect
    obtain ⟨hcache, hname, hsame⟩ := hcache
    obtain ⟨hfill, hsame'⟩ := hfill
    obtain ⟨hupdate, rfl⟩ := hupdate
    subst hs hlast
    have hclients := hsame.trans hsame'
    exact ⟨hconnect, ⟨hcache, (fills_congr hname).mp hfill, .inl rfl, hupdate, hlog⟩, ⟨rfl, rfl⟩,
      hclients.opened, hclients.closed⟩
  case vc2 hs _ _ hconnect _ _ hcache _ _ hfill _ _ _ hupdate _ _ _ =>
    intro hlog hlast
    obtain ⟨hconnect, rfl⟩ := hconnect
    obtain ⟨_, rfl⟩ := hupdate
    subst hs hlast
    have hclients := hcache.2.2.trans hfill.2
    refine .inr ⟨hconnect, fun h => ?_, hclients.opened, hclients.closed⟩
    cases hlog.symm.trans h.logs
  case vc3 hs _ _ hconnect _ _ hcache _ _ hfill _ _ _ =>
    intro hupdate hlast
    obtain ⟨hconnect, rfl⟩ := hconnect
    subst hs hlast
    have hclients := hcache.2.2.trans hfill.2
    exact .inr ⟨hconnect, fun h => hupdate h.updates, hclients.opened, hclients.closed⟩
  case vc4 hs _ _ hconnect _ _ hcache _ _ =>
    intro hfill hsame
    obtain ⟨hconnect, rfl⟩ := hconnect
    obtain ⟨_, hname, hsame'⟩ := hcache
    subst hs
    exact .inr ⟨hconnect, fun h => hfill ((fills_congr hname).mpr h.fills), hsame'.trans hsame⟩
  case vc5 hs _ _ hconnect _ _ =>
    intro hcache hsame
    obtain ⟨hconnect, rfl⟩ := hconnect
    subst hs
    exact .inr ⟨hconnect, fun h => hcache h.caches, hsame⟩
  case vc6 hs _ _ =>
    intro herror hsame
    exact .inl ⟨herror, hsame.trans hs⟩

/-- After a probe that has failed, the start goes on or not. -/
@[spec] theorem probeModern_spec (preference : DownstreamMcpProtocolPreference)
    (s₀ : StartState) :
    ⦃fun s => ⌜s = s₀⌝⦄ o.probeModern preference
    ⦃post⟨fun done s => ⌜(done = true → o.Connected s₀ s .modern .http) ∧
        (done = false → preference ≠ .modern ∧
          ((∃ error, o.connect .modern = .error error ∧ error.isModernProtocolError = false ∧
            s = s₀) ∨ o.Dropped s₀ s .modern .http))⌝,
      fun _ s => ⌜(∃ error, o.connect .modern = .error error ∧
          (preference = .modern ∨ error.isModernProtocolError = true) ∧ s = s₀) ∨
        o.Dropped s₀ s .modern .http⌝⟩⦄ := by
  mvcgen [probeModern]
  case vc1 hs _ _ h =>
    subst hs
    exact ⟨h, fun hdone => (by cases hdone)⟩
  case vc2 hs error _ hthrows h =>
    subst hs
    simp only [Bool.or_eq_true, decide_eq_true_eq] at hthrows
    obtain ⟨herror, hsame⟩ | hdropped := h
    · exact .inl ⟨error, herror, hthrows, hsame⟩
    · exact .inr hdropped
  case vc3 hs error _ hthrows h =>
    subst hs
    simp only [Bool.or_eq_true, decide_eq_true_eq, not_or, Bool.not_eq_true] at hthrows
    refine ⟨fun hdone => (by cases hdone), hthrows.1, ?_⟩
    obtain ⟨herror, hsame⟩ | hdropped := h
    · exact .inl ⟨error, herror, hthrows.2, hsame⟩
    · exact .inr hdropped

@[spec] theorem finishConnection_spec (client : StartClient) (hclient : client ≠ .modern)
    (t : DownstreamTransportType) (s₀ : StartState) :
    ⦃fun s => ⌜s = s₀⌝⦄ o.finishConnection client t
    ⦃post⟨fun _ s => ⌜o.Completes s₀ client t ∧ OnlineOn s client ∧ SameClients s₀ s⌝,
      fun _ s => ⌜¬o.Completes s₀ client t ∧ SameClients s₀ s⌝⟩⦄ := by
  mvcgen [finishConnection]
  case vc1 hs _ _ hcache _ _ hfill _ _ hping _ _ _ hupdate _ _ =>
    intro hlog hlast
    obtain ⟨hcache, hname, hsame⟩ := hcache
    obtain ⟨hping, rfl⟩ := hping
    obtain ⟨hupdate, rfl⟩ := hupdate
    subst hs hlast
    have hclients := hsame.trans hfill.2
    exact ⟨⟨hcache, (fills_congr hname).mp hfill.1, .inr hping, hupdate, hlog⟩, ⟨rfl, rfl⟩,
      hclients.opened, hclients.closed⟩
  case vc2 hs _ _ hcache _ _ hfill _ _ hping _ _ _ hupdate _ _ =>
    intro hlog hlast
    obtain ⟨_, rfl⟩ := hping
    obtain ⟨_, rfl⟩ := hupdate
    subst hs hlast
    have hclients := hcache.2.2.trans hfill.2
    refine ⟨fun h => ?_, hclients.opened, hclients.closed⟩
    cases hlog.symm.trans h.logs
  case vc3 hs _ _ hcache _ _ hfill _ _ hping _ _ _ =>
    intro hupdate hlast
    obtain ⟨_, rfl⟩ := hping
    subst hs hlast
    have hclients := hcache.2.2.trans hfill.2
    exact ⟨fun h => hupdate h.updates, hclients.opened, hclients.closed⟩
  case vc4 hs _ _ hcache _ _ hfill _ _ =>
    intro hping hlast
    subst hs hlast
    refine ⟨fun h => ?_, hcache.2.2.trans hfill.2⟩
    obtain hmodern | hok := h.pings
    · exact hclient hmodern
    · cases hping.symm.trans hok
  case vc5 hs _ _ hcache _ _ =>
    intro hfill hsame
    subst hs
    exact ⟨fun h => hfill ((fills_congr hcache.2.1).mpr h.fills), hcache.2.2.trans hsame⟩
  case vc6 hs _ _ =>
    intro hcache hsame
    subst hs
    exact ⟨fun h => hcache h.caches, hsame⟩

/-! ## The transport of the launch config -/

/-- The launch config's own transport is created. -/
structure Creates (o : StartOutcomes) (config : Json) (t : DownstreamTransportType) : Prop where
  detects : detectTransportType config = some t
  supported : t ≠ .unsupported
  created : o.createTransport = .ok ()

/-- The fallback to SSE is tried. -/
structure FallsBack (o : StartOutcomes) (config : Json) (t : DownstreamTransportType) : Prop where
  allowed : canFallbackHttpToSse config t = true
  created : o.createSSEFallbackTransport = .ok ()

@[spec] theorem createTransportOf_spec (config : Json) (s₀ : StartState) :
    ⦃fun s => ⌜s = s₀⌝⦄ o.createTransportOf config
    ⦃post⟨fun t s => ⌜o.Creates config t ∧ s = s₀⌝,
      fun _ s => ⌜(∀ t, ¬o.Creates config t) ∧ s = s₀⌝⟩⦄ := by
  mvcgen [createTransportOf]
  case vc1 hdetect _ hs =>
    refine ⟨fun t h => ?_, hs⟩
    cases hdetect.symm.trans h.detects
  case vc2 hdetect _ hs =>
    refine ⟨fun t h => ?_, hs⟩
    obtain rfl := Option.some.inj (hdetect.symm.trans h.detects)
    exact h.supported rfl
  case vc3 hsupported hdetect _ hs _ _ h =>
    exact ⟨⟨hdetect, hsupported, h.1⟩, h.2.trans hs⟩
  case vc4 hdetect _ hs _ _ =>
    intro herror hsame
    refine ⟨fun t h => ?_, hsame.trans hs⟩
    cases herror.symm.trans h.created

/-- The handler throws in any case, also after the fallback has connected. -/
@[spec] theorem handleConnectError_spec (config : Json) (t : DownstreamTransportType)
    (error : StartError) (s₀ : StartState) :
    ⦃fun s => ⌜s = s₀⌝⦄ o.handleConnectError config t error
    ⦃post⟨fun _ _ => ⌜False⌝,
      fun _ s => ⌜o.FallsBack config t ∧ o.connect .sseFallback = .ok () ∧
          s = { s₀ with opened := .sseFallback :: s₀.opened } ∨
        ¬(o.FallsBack config t ∧ o.connect .sseFallback = .ok ()) ∧ s = s₀⌝⟩⦄ := by
  mvcgen [handleConnectError]
  case vc1 hallowed _ hs _ _ hcreated _ _ h =>
    obtain ⟨hcreated, rfl⟩ := hcreated
    subst hs
    exact .inl ⟨⟨hallowed, hcreated⟩, h⟩
  case vc2 _ _ hs _ _ hcreated _ _ h =>
    obtain ⟨_, rfl⟩ := hcreated
    subst hs
    refine .inr ⟨fun hboth => ?_, h.2⟩
    cases h.1.symm.trans hboth.2
  case vc3 _ _ hs _ _ =>
    intro herror hsame
    refine .inr ⟨fun hboth => ?_, hsame.trans hs⟩
    cases herror.symm.trans hboth.1.created
  case vc4 hallowed _ _ hs =>
    exact .inr ⟨fun hboth => hallowed hboth.1.allowed, hs⟩
  case vc5 hallowed _ _ hs =>
    exact .inr ⟨fun hboth => hallowed hboth.1.allowed, hs⟩

/-- The attempts on the transports of a launch config, with the types that they connect. -/
inductive LegacyAttempt (o : StartOutcomes) (config : Json) :
    StartClient → DownstreamTransportType → Prop
  | transport {t : DownstreamTransportType} :
    o.Creates config t → LegacyAttempt o config .transport t
  | sseFallback {t : DownstreamTransportType} {error : StartError} :
    o.Creates config t → o.connect .transport = .error error → o.FallsBack config t →
      LegacyAttempt o config .sseFallback .sse

theorem Creates.type_eq {t t' : DownstreamTransportType} (h : o.Creates config t)
    (h' : o.Creates config t') : t = t' :=
  Option.some.inj (h.detects.symm.trans h'.detects)

/-- A connection on the transport of the launch config makes the fallback impossible. -/
theorem LegacyAttempt.eq_transport {t t' : DownstreamTransportType} (hcreates : o.Creates config t)
    (hconnect : o.connect .transport = .ok ()) (h : o.LegacyAttempt config client t') :
    client = .transport ∧ t' = t := by
  cases h with
  | transport hcreates' => exact ⟨rfl, hcreates'.type_eq hcreates⟩
  | sseFallback _ herror _ => cases herror.symm.trans hconnect

/-- No attempt on a transport connects. -/
def NoneConnects (o : StartOutcomes) (config : Json) : Prop :=
  ∀ client t, o.LegacyAttempt config client t → o.connect client ≠ .ok ()

/-- A connection on the transport of the launch config, or what is left without one. -/
@[spec] theorem connectTransport_spec (config : Json) (s₀ : StartState) :
    ⦃fun s => ⌜s = s₀⌝⦄ o.connectTransport config
    ⦃post⟨fun attempt s => ⌜attempt.1 = .transport ∧ o.Creates config attempt.2 ∧
        o.connect .transport = .ok () ∧ s = { s₀ with opened := .transport :: s₀.opened }⌝,
      fun _ s => ⌜(o.LegacyAttempt config .sseFallback .sse ∧ o.connect .sseFallback = .ok () ∧
          s = { s₀ with opened := .sseFallback :: s₀.opened }) ∨
        (o.NoneConnects config ∧ s = s₀)⌝⟩⦄ := by
  mvcgen [connectTransport]
  case vc1 hs _ _ hcreates _ _ h =>
    obtain ⟨hcreates, rfl⟩ := hcreates
    subst hs
    exact ⟨trivial, hcreates, h⟩
  case vc2 => exact False.elim
  case vc3 hs t _ hcreates _ _ h _ _ =>
    intro hfallback
    obtain ⟨hcreates, rfl⟩ := hcreates
    obtain ⟨herror, rfl⟩ := h
    subst hs
    obtain ⟨hfalls, hconnect, hlast⟩ | ⟨hnot, hlast⟩ := hfallback
    · exact .inl ⟨.sseFallback hcreates herror hfalls, hconnect, hlast⟩
    · refine .inr ⟨fun client t' hattempt hconnect => ?_, hlast⟩
      cases hattempt with
      | transport _ => cases herror.symm.trans hconnect
      | sseFallback hcreates' _ hfalls =>
        rw [hcreates'.type_eq hcreates] at hfalls
        exact hnot ⟨hfalls, hconnect⟩
  case vc4 hs _ _ =>
    intro hcreates hlast
    refine .inr ⟨fun client t hattempt _ => ?_, hlast.trans hs⟩
    cases hattempt with
    | transport h => exact hcreates _ h
    | sseFallback h _ _ => exact hcreates _ h

/-- What the transports of a launch config leave when they throw. -/
def LegacyFails (o : StartOutcomes) (config : Json) (s₀ s : StartState) : Prop :=
  (∃ t, o.Creates config t ∧ o.Dropped s₀ s .transport t) ∨
    (o.LegacyAttempt config .sseFallback .sse ∧ o.connect .sseFallback = .ok () ∧
      s = { s₀ with opened := .sseFallback :: s₀.opened }) ∨
    (o.NoneConnects config ∧ s = s₀)

@[spec] theorem connectLegacy_spec (config : Json) (s₀ : StartState) :
    ⦃fun s => ⌜s = s₀⌝⦄ o.connectLegacy config
    ⦃post⟨fun _ s => ⌜∃ t, o.Creates config t ∧ o.Connected s₀ s .transport t⌝,
      fun _ s => ⌜o.LegacyFails config s₀ s⌝⟩⦄ := by
  mvcgen [connectLegacy]
  case vc1 hs attempt _ h _ _ =>
    intro hcompletes honline hclients
    obtain ⟨hclient, hcreates, hconnect, rfl⟩ := h
    subst hs
    rw [hclient] at hcompletes honline
    exact ⟨attempt.2, hcreates, hconnect, hcompletes.congr rfl rfl, honline, hclients⟩
  case vc2 hs attempt _ h _ _ =>
    intro hfails hclients
    obtain ⟨hclient, hcreates, hconnect, rfl⟩ := h
    subst hs
    rw [hclient] at hfails
    exact .inl ⟨attempt.2, hcreates, hconnect, fun h => hfails (h.congr rfl rfl), hclients⟩
  case vc3 attempt =>
    intro _ hclient _ _ _
    simp [hclient]
  case vc4 hs _ _ =>
    intro h
    subst hs
    exact .inr h

/-! ## A whole start -/

/-- The launch config asks for a probe with the modern client. -/
def Probes (o : StartOutcomes) (initialTransportType : DownstreamTransportType)
    (preference : DownstreamMcpProtocolPreference) : Prop :=
  initialTransportType = .http ∧ preference ≠ .legacy ∧ o.downstreamEnabled = true

/-- A start comes to the transports of the launch config: the modern client is not demanded, and
    its probe, where there is one, has failed to connect with an error that is not its own. -/
structure ReachesTransports (o : StartOutcomes) (config : Json)
    (initialTransportType : DownstreamTransportType)
    (preference : DownstreamMcpProtocolPreference) : Prop where
  resolved : o.resolvedLaunchConfig = .ok config
  planned : plan config = some (initialTransportType, preference)
  notDemanded : preference ≠ .modern
  probed : o.Probes initialTransportType preference →
    ∃ error, o.connect .modern = .error error ∧ error.isModernProtocolError = false

/-- The attempts of a start in their order: each is permitted when those before it have failed to
    connect. -/
inductive Permitted (o : StartOutcomes) : StartClient → DownstreamTransportType → Prop
  | modern {config : Json} {preference : DownstreamMcpProtocolPreference} :
    o.resolvedLaunchConfig = .ok config → plan config = some (.http, preference) →
      o.Probes .http preference → Permitted o .modern .http
  | transports {config : Json} {initialTransportType t : DownstreamTransportType}
      {preference : DownstreamMcpProtocolPreference} {client : StartClient} :
    o.ReachesTransports config initialTransportType preference →
      o.LegacyAttempt config client t → Permitted o client t

/-- Only HTTP servers may be demanded to be modern. -/
theorem plan_modern {initialTransportType : DownstreamTransportType}
    (h : plan config = some (initialTransportType, .modern)) : initialTransportType = .http := by
  unfold plan at h
  split at h
  · split at h
    · cases h
    · rename_i hhttp
      obtain ⟨rfl, rfl⟩ := Prod.mk.inj (Option.some.inj h)
      simpa using hhttp
  · cases h

/-- What is permitted once the launch config has been read. -/
theorem Permitted.cases_of {initialTransportType t : DownstreamTransportType}
    (hresolved : o.resolvedLaunchConfig = .ok config)
    (hplan : plan config = some (initialTransportType, preference)) (h : o.Permitted client t) :
    (client = .modern ∧ t = .http ∧ o.Probes initialTransportType preference) ∨
      (o.ReachesTransports config initialTransportType preference ∧
        o.LegacyAttempt config client t) := by
  cases h with
  | modern hresolved' hplan' hprobes =>
    obtain rfl := Except.ok.inj (hresolved.symm.trans hresolved')
    obtain ⟨rfl, rfl⟩ := Prod.mk.inj (Option.some.inj (hplan.symm.trans hplan'))
    exact .inl ⟨rfl, rfl, hprobes⟩
  | transports hreaches hattempt =>
    obtain rfl := Except.ok.inj (hresolved.symm.trans hreaches.resolved)
    obtain ⟨rfl, rfl⟩ := Prod.mk.inj (Option.some.inj (hplan.symm.trans hreaches.planned))
    exact .inr ⟨hreaches, hattempt⟩

/-- A start that has not done anything yet to the row of the server and to the clients. -/
structure Untouched (s s' : StartState) : Prop where
  transportType : s'.transportType = s.transportType
  serverName : s'.serverName = s.serverName
  clients : SameClients s s'

theorem Untouched.of_resolves {s : StartState} (hs : s = s₀) (h : o.resolvedLaunchConfig =
    .ok config ∧ s₁ = { s with status := .connecting, tokenRefresh := o.tokenRefresh }) :
    o.resolvedLaunchConfig = .ok config ∧ Untouched s₀ s₁ := by
  rw [h.2, ← hs]
  exact ⟨h.1, rfl, rfl, rfl, rfl⟩

theorem Untouched.connected (h : Untouched s₀ s₁) (hconnected : o.Connected s₁ s client t) :
    o.Connected s₀ s client t :=
  { connect := hconnected.connect
    completes := hconnected.completes.congr h.transportType.symm h.serverName.symm
    online := hconnected.online
    clients :=
      ⟨hconnected.clients.opened.trans (congrArg (client :: ·) h.clients.opened),
        hconnected.clients.closed.trans h.clients.closed⟩ }

theorem Untouched.dropped (h : Untouched s₀ s₁) (hdropped : o.Dropped s₁ s client t) :
    o.Dropped s₀ s client t :=
  { connect := hdropped.connect
    fails := fun hcompletes =>
      hdropped.fails (hcompletes.congr h.transportType h.serverName)
    clients :=
      ⟨hdropped.clients.opened.trans (congrArg (client :: ·) h.clients.opened),
        hdropped.clients.closed.trans h.clients.closed⟩ }

/-- A start that returns. After a modern client that was dropped, the start may be done on the
    transport of the launch config. -/
def Succeeds (o : StartOutcomes) (s₀ s : StartState) : Prop :=
  (∃ client t, o.Permitted client t ∧ client ≠ .sseFallback ∧ o.Connected s₀ s client t) ∨
    (o.Permitted .modern .http ∧ o.connect .modern = .ok () ∧ ¬o.Completes s₀ .modern .http ∧
      OnlineOn s .transport)

/-- A start that throws with a permitted client that has connected. -/
structure FailsAfter (o : StartOutcomes) (s₀ s : StartState) (client : StartClient)
    (t : DownstreamTransportType) : Prop where
  permitted : o.Permitted client t
  connect : o.connect client = .ok ()
  because : client = .sseFallback ∨ ¬o.Completes s₀ client t
  opened : client ∈ s.opened
  closed : s.closed = s₀.closed

/-- No permitted attempt connects. -/
def NonePermitted (o : StartOutcomes) : Prop :=
  ∀ client t, o.Permitted client t → o.connect client ≠ .ok ()

/-- A start that throws. -/
def Fails (o : StartOutcomes) (s₀ s : StartState) : Prop :=
  (∃ client t, o.FailsAfter s₀ s client t) ∨ (o.NonePermitted ∧ SameClients s₀ s)

theorem Dropped.failsAfter {s₀ s : StartState} (h : o.Dropped s₀ s client t)
    (hpermitted : o.Permitted client t) : o.FailsAfter s₀ s client t :=
  ⟨hpermitted, h.connect, .inr h.fails, h.clients.opened ▸ List.mem_cons_self, h.clients.closed⟩

/-- The clients that were open before the transports of the launch config stay open. -/
theorem LegacyFails.keeps {s₀ s : StartState} (h : o.LegacyFails config s₀ s)
    (hmem : client ∈ s₀.opened) : client ∈ s.opened ∧ s.closed = s₀.closed := by
  obtain ⟨t, _, hdropped⟩ | ⟨_, _, rfl⟩ | ⟨_, rfl⟩ := h
  · exact ⟨hdropped.clients.opened ▸ List.mem_cons_of_mem _ hmem, hdropped.clients.closed⟩
  · exact ⟨List.mem_cons_of_mem _ hmem, rfl⟩
  · exact ⟨hmem, rfl⟩

/-- Where the modern client is not probed and yet not demanded in vain. A modern preference comes
    with an HTTP server, so that only the switch can have kept the probe from being made. -/
theorem ReachesTransports.of_not_probes {initialTransportType : DownstreamTransportType}
    (hresolved : o.resolvedLaunchConfig = .ok config)
    (hplan : plan config = some (initialTransportType, preference))
    (hprobes : ¬o.Probes initialTransportType preference)
    (hdemanded : ¬(preference = .modern ∧ o.downstreamEnabled = false)) :
    o.ReachesTransports config initialTransportType preference := by
  refine ⟨hresolved, hplan, ?_, fun h => absurd h hprobes⟩
  rintro rfl
  have henabled : o.downstreamEnabled = true := by simpa using hdemanded
  exact hprobes ⟨plan_modern hplan, by simp, henabled⟩

theorem Succeeds.of_legacy {initialTransportType t : DownstreamTransportType}
    (hreaches : o.ReachesTransports config initialTransportType preference)
    (hsame : Untouched s₀ s₁) (hcreates : o.Creates config t)
    (hconnected : o.Connected s₁ s .transport t) : o.Succeeds s₀ s :=
  .inl ⟨.transport, t, .transports hreaches (.transport hcreates), by simp,
    hsame.connected hconnected⟩

theorem Fails.of_legacy {initialTransportType : DownstreamTransportType}
    (hreaches : o.ReachesTransports config initialTransportType preference)
    (hsame : Untouched s₀ s₁) (hfails : o.LegacyFails config s₁ s) : o.Fails s₀ s := by
  obtain ⟨t, hcreates, hdropped⟩ | ⟨hattempt, hconnect, rfl⟩ | ⟨hnone, rfl⟩ := hfails
  · exact .inl ⟨_, t,
      (hsame.dropped hdropped).failsAfter (.transports hreaches (.transport hcreates))⟩
  · exact .inl ⟨_, _, .transports hreaches hattempt, hconnect, .inl rfl, List.mem_cons_self,
      hsame.clients.closed⟩
  · refine .inr ⟨fun client t hpermitted hconnect => ?_, hsame.clients⟩
    obtain ⟨rfl, -, hprobes⟩ | ⟨_, hattempt⟩ :=
      hpermitted.cases_of hreaches.resolved hreaches.planned
    · obtain ⟨error, herror, _⟩ := hreaches.probed hprobes
      cases herror.symm.trans hconnect
    · exact hnone client t hattempt hconnect

/-- How a start ends. -/
@[spec] theorem start_spec (s₀ : StartState) :
    ⦃fun s => ⌜s = s₀⌝⦄ o.start
    ⦃post⟨fun _ s => ⌜o.Succeeds s₀ s⌝, fun _ s => ⌜o.Fails s₀ s⌝⟩⦄ := by
  mvcgen [start]
  case vc1 hs _ _ config hplan _ h =>
    obtain ⟨hresolved, rfl⟩ := h
    subst hs
    refine .inr ⟨fun client t hpermitted => ?_, rfl, rfl⟩
    cases hpermitted with
    | modern hresolved' hplan' _ =>
      obtain rfl := Except.ok.inj (hresolved.symm.trans hresolved')
      cases hplan.symm.trans hplan'
    | transports hreaches _ =>
      obtain rfl := Except.ok.inj (hresolved.symm.trans hreaches.resolved)
      cases hplan.symm.trans hreaches.planned
  case vc2 hs _ _ config initial preference hplan hprobes s₁ hconfig done hdone _ h =>
    obtain ⟨hresolved, hsame⟩ := Untouched.of_resolves hs hconfig
    obtain rfl := hprobes.1
    exact .inl ⟨.modern, .http, .modern hresolved hplan hprobes, by simp,
      hsame.connected (h.1 hdone)⟩
  case vc3 hs _ _ config initial preference hplan hprobes s₁ hconfig done hdone _ h _ _ =>
    rintro ⟨t, hcreates, hconnected⟩
    obtain ⟨hresolved, hsame⟩ := Untouched.of_resolves hs hconfig
    obtain ⟨hpreference, ⟨error, herror, hmodern, rfl⟩ | hdropped⟩ := h.2 (by simpa using hdone)
    · exact .of_legacy ⟨hresolved, hplan, hpreference, fun _ => ⟨error, herror, hmodern⟩⟩ hsame
        hcreates hconnected
    · obtain rfl := hprobes.1
      exact .inr ⟨.modern hresolved hplan hprobes, hdropped.connect,
        (hsame.dropped hdropped).fails, hconnected.online⟩
  case vc4 hs _ _ config initial preference hplan hprobes s₁ hconfig done hdone _ h _ _ =>
    intro hfails
    obtain ⟨hresolved, hsame⟩ := Untouched.of_resolves hs hconfig
    obtain ⟨hpreference, ⟨error, herror, hmodern, rfl⟩ | hdropped⟩ := h.2 (by simpa using hdone)
    · exact .of_legacy ⟨hresolved, hplan, hpreference, fun _ => ⟨error, herror, hmodern⟩⟩ hsame
        hfails
    · -- the modern client stays open under what the transports do
      obtain rfl := hprobes.1
      have hafter := (hsame.dropped hdropped).failsAfter (.modern hresolved hplan hprobes)
      obtain ⟨hopened, hclosed⟩ := hfails.keeps hafter.opened
      exact .inl ⟨_, _, { hafter with opened := hopened, closed := hclosed.trans hafter.closed }⟩
  case vc5 hs _ _ config initial preference hplan hprobes s₁ hconfig _ _ =>
    intro h
    obtain ⟨hresolved, hsame⟩ := Untouched.of_resolves hs hconfig
    obtain ⟨error, herror, hthrows, rfl⟩ | hdropped := h
    · refine .inr ⟨fun client t hpermitted hconnect => ?_, hsame.clients⟩
      obtain ⟨rfl, -, -⟩ | ⟨hreaches, _⟩ := hpermitted.cases_of hresolved hplan
      · cases herror.symm.trans hconnect
      · obtain ⟨error', herror', hmodern⟩ := hreaches.probed hprobes
        obtain rfl := Except.error.inj (herror.symm.trans herror')
        obtain hdemanded | hmodern' := hthrows
        · exact hreaches.notDemanded hdemanded
        · simp [hmodern] at hmodern'
    · obtain rfl := hprobes.1
      exact .inl ⟨_, _,
        (hsame.dropped hdropped).failsAfter (.modern hresolved hplan hprobes)⟩
  case vc6 hs _ _ config initial preference hplan hprobes hdemanded s₁ hconfig =>
    obtain ⟨hresolved, hsame⟩ := Untouched.of_resolves hs hconfig
    refine .inr ⟨fun client t hpermitted _ => ?_, hsame.clients⟩
    obtain ⟨-, -, h⟩ | ⟨hreaches, _⟩ := hpermitted.cases_of hresolved hplan
    · exact hprobes h
    · exact hreaches.notDemanded hdemanded.1
  case vc7 hs _ _ config initial preference hplan hprobes hdemanded s₁ hconfig _ _ =>
    rintro ⟨t, hcreates, hconnected⟩
    obtain ⟨hresolved, hsame⟩ := Untouched.of_resolves hs hconfig
    exact .of_legacy (.of_not_probes hresolved hplan hprobes hdemanded) hsame hcreates hconnected
  case vc8 hs _ _ config initial preference hplan hprobes hdemanded s₁ hconfig _ _ =>
    intro hfails
    obtain ⟨hresolved, hsame⟩ := Untouched.of_resolves hs hconfig
    exact .of_legacy (.of_not_probes hresolved hplan hprobes hdemanded) hsame hfails
  case vc9 hs _ _ _ _ =>
    intro herror hs₁
    subst hs hs₁
    refine .inr ⟨fun client t hpermitted _ => ?_, rfl, rfl⟩
    cases hpermitted with
    | modern hresolved _ _ => cases herror.symm.trans hresolved
    | transports hreaches _ => cases herror.symm.trans hreaches.resolved

/-- The context of a start that has thrown. -/
structure ClearedContext (s : StartState) : Prop where
  tokenRefresh : s.tokenRefresh = false
  connection : s.connection = none
  transport : s.transport = none

theorem createServerConnection_spec (s₀ : StartState) (hidle : s₀.status ≠ .online)
    (hnew : s₀.status ≠ .connecting) :
    ⦃fun s => ⌜s = s₀⌝⦄ o.createServerConnection
    ⦃post⟨fun _ s => ⌜o.Succeeds s₀ s⌝,
      fun _ s => ⌜o.Fails s₀ s ∧ ClearedContext s⌝⟩⦄ := by
  mvcgen [createServerConnection]
  case vc1 hs hguard =>
    subst hs
    exact absurd hguard (not_or.mpr ⟨hidle, hnew⟩)
  case vc2 hs _ _ _ => exact fun h => hs ▸ h
  case vc3 hs _ _ _ hfails _ =>
    subst hs
    refine ⟨?_, rfl, rfl, rfl⟩
    obtain ⟨client, t, hafter⟩ | ⟨hnone, hclients⟩ := hfails
    · exact .inl ⟨client, t, { hafter with }⟩
    · exact .inr ⟨hnone, hclients.opened, hclients.closed⟩

/-- At most one permitted attempt connects. -/
theorem Permitted.unique {client client' : StartClient} {t t' : DownstreamTransportType}
    (h : o.Permitted client t) (hconnect : o.connect client = .ok ())
    (h' : o.Permitted client' t') (hconnect' : o.connect client' = .ok ()) :
    client' = client ∧ t' = t := by
  cases h with
  | modern hresolved hplan hprobes =>
    obtain ⟨hclient, ht, -⟩ | ⟨hreaches, _⟩ := h'.cases_of hresolved hplan
    · exact ⟨hclient, ht⟩
    · obtain ⟨error, herror, _⟩ := hreaches.probed hprobes
      cases herror.symm.trans hconnect
  | transports hreaches hattempt =>
    obtain ⟨rfl, -, hprobes⟩ | ⟨_, hattempt'⟩ := h'.cases_of hreaches.resolved hreaches.planned
    · obtain ⟨error, herror, _⟩ := hreaches.probed hprobes
      cases herror.symm.trans hconnect'
    · cases hattempt with
      | transport hcreates => exact hattempt'.eq_transport hcreates hconnect
      | sseFallback hcreates herror _ =>
        cases hattempt' with
        | transport _ => cases herror.symm.trans hconnect'
        | sseFallback _ _ _ => exact ⟨rfl, rfl⟩

/-! ## The chain of attempts -/

/-- The start returns, online on the permitted client that has connected, when that client also
    answers the ping and its capabilities can be updated; otherwise it throws. -/
def ChainHolds (o : StartOutcomes) (s : StartState) : Prop :=
  match o.createServerConnection s with
  | .ok _ s' =>
    ∃ client t, o.Permitted client t ∧ o.connect client = .ok () ∧ o.Pings client ∧
      o.UpdatesCapabilities client ∧ OnlineOn s' client
  | .error _ _ =>
    ∀ client t, o.Permitted client t → o.connect client = .ok () → o.Pings client →
      ¬o.UpdatesCapabilities client

/-- What a start writes besides: the row of the server and the log. -/
structure Saves (o : StartOutcomes) (s : StartState) (client : StartClient)
    (t : DownstreamTransportType) : Prop where
  caches : o.Caches s client t
  fills : o.Fills s client
  logs : o.Logs client

/-- A server at a URL from which HTTP is guessed, with the modern protocol switched off. -/
def urlServer (connect : StartClient → Except StartError Unit) : StartOutcomes where
  category := .customRemote
  allowUserInput := false
  isLazyStartApplicable := false
  downstreamEnabled := false
  resolvedLaunchConfig := .ok (.obj [("url", .str "https://host/mcp")])
  tokenRefresh := false
  createTransport := .ok ()
  createSSEFallbackTransport := .ok ()
  runnerFailure := false
  connect := connect
  serverVersion := fun _ => some "files"
  saveTransportType := fun _ => .ok ()
  saveServerName := fun _ => .ok ()
  ping := fun _ => .ok ()
  resourcesSubscribe := fun _ => false
  restoreResourceSubscriptions := fun _ => .ok ()
  logServerLifecycle := fun _ => .ok ()

/-- A context that has not been started. -/
def notStarted : StartState where
  status := .offline
  connection := none
  transport := none
  tokenRefresh := false
  transportType := none
  serverName := "Files"
  opened := []
  closed := []

/-- The connect on streamable HTTP fails, and the one on SSE does not. -/
def onlySse : StartClient → Except StartError Unit
  | .sseFallback => .ok ()
  | _ => .error .other

theorem url_server_permits_fallback : (urlServer onlySse).Permitted .sseFallback .sse := by
  have hplan : plan (.obj [("url", .str "https://host/mcp")]) = some (.http, .auto) := by
    decide +kernel
  have hdetect : detectTransportType (.obj [("url", .str "https://host/mcp")]) = some .http := by
    decide +kernel
  refine .transports ⟨rfl, hplan, by simp, ?_⟩
    (.sseFallback ⟨hdetect, by simp, rfl⟩ rfl ⟨by decide +kernel, rfl⟩)
  rintro ⟨-, -, hdisabled⟩
  cases hdisabled

/-- A state in which the start has not opened anything. -/
def fresh (s : StartState) : StartState := { s with opened := [], closed := [] }

/-- Nothing of a start is left: its clients are closed, the timer is stopped and the context holds
    no connection. -/
structure CleanedUp (s : StartState) : Prop extends ClearedContext s where
  closes : ∀ client ∈ s.opened, client ∈ s.closed

/-- A context that is connected or connecting is left alone. -/
theorem createServerConnection_of_started {s : StartState}
    (h : s.status = .online ∨ s.status = .connecting) :
    o.createServerConnection s = .ok () s := by
  show (if s.status = .online ∨ s.status = .connecting then (pure () : StartM Unit) else _) s = _
  rw [if_pos h]
  rfl

/-- A start that throws has cleaned up after itself exactly when none of its permitted attempts has
    connected: the handler clears the context and closes nothing. -/
theorem failed_start_leaks (o : StartOutcomes) (s : StartState) {error : StartError}
    {s' : StartState} (hrun : o.createServerConnection (fresh s) = .error error s') :
    CleanedUp s' ↔ o.NonePermitted := by
  have hguard : ¬((fresh s).status = .online ∨ (fresh s).status = .connecting) := by
    intro hstarted
    cases hrun.symm.trans (createServerConnection_of_started hstarted)
  obtain ⟨hfails, hcleared⟩ := StateTriple.of_error
    (createServerConnection_spec (fresh s) (fun h => hguard (.inl h))
      (fun h => hguard (.inr h)) (o := o)) rfl hrun
  constructor
  · intro hclean
    obtain ⟨client, t, hafter⟩ | ⟨hnone, _⟩ := hfails
    · have hclosed := hclean.closes client hafter.opened
      rw [hafter.closed] at hclosed
      cases hclosed
    · exact hnone
  · intro hnone
    obtain ⟨client, t, hafter⟩ | ⟨_, hclients⟩ := hfails
    · exact absurd hafter.connect (hnone client t hafter.permitted)
    · refine ⟨hcleared, fun client hopened => ?_⟩
      rw [hclients.opened] at hopened
      cases hopened

/-- The server connects and does not answer the ping. -/
def silentServer : StartOutcomes :=
  { urlServer fun _ => .ok () with ping := fun _ => .error .other }

theorem silentServer_throws : ∃ error s',
    silentServer.createServerConnection (fresh notStarted) = .error error s' ∧
      s'.opened = [.transport] ∧ s'.closed = [] := by
  have hends : (match silentServer.createServerConnection (fresh notStarted) with
      | .ok _ _ => none
      | .error _ s' => some (s'.opened, s'.closed)) = some ([.transport], []) := by
    decide +kernel
  cases hrun : silentServer.createServerConnection (fresh notStarted) with
  | ok _ s' => simp [hrun] at hends
  | error error s' =>
    simp only [hrun, Option.some.injEq, Prod.mk.injEq] at hends
    exact ⟨error, s', rfl, hends⟩

theorem failed_start_leaks_silent : ∃ error s',
    silentServer.createServerConnection (fresh notStarted) = .error error s' ∧
      (CleanedUp s' ↔ silentServer.NonePermitted) := by
  obtain ⟨error, s', hrun, -, -⟩ := silentServer_throws
  exact ⟨error, s', hrun, failed_start_leaks silentServer notStarted hrun⟩

/-- After a ping without an answer the client is still open. -/
theorem silent_start_not_cleaned :
    ¬∀ (o : StartOutcomes) (s : StartState) (error : StartError) (s' : StartState),
      o.createServerConnection (fresh s) = .error error s' → CleanedUp s' := by
  intro h
  obtain ⟨error, s', hrun, hopened, hclosed⟩ := silentServer_throws
  have hcloses := (h _ _ error s' hrun).closes .transport (by rw [hopened]; exact List.mem_cons_self)
  rw [hclosed] at hcloses
  cases hcloses

end StartOutcomes

end PetaCore
