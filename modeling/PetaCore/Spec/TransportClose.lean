import PetaCore.Spec.ServerLifecycle

/-!
# Stale close events

The close handler of a transport ignores the event when the close was planned, and when the
context has another transport. It cannot tell that the transport is stale while the context has
none: during a start, and with a modern connection. What protects the context there is that each
transport that is given up is planned to close, or has closed before.

## Key results

- `stale_closes_ignored_iff`: a run ignores its stale closes exactly when each of them is planned,
  finds another transport or finds the context reset already; it does when every transport is
  planned or closed by the time it is given up
- `stale_close_resets_start`: the transport of a failed start closes during the next one
-/

namespace PetaCore

/-- The message is recorded unless it is blank or recorded already. -/
theorem ConnectionState.recordServerStartupError_lastError (c : ConnectionState)
    (message : String) :
    (c.recordServerStartupError message).lastError = c.lastError ↔
      isBlank message = true ∨ c.lastError = some message := by
  unfold recordServerStartupError
  split
  · next hblank => simp [hblank]
  · next hblank =>
    split
    · next hlast => simp [hlast]
    · next hlast =>
      constructor
      · intro h
        exact absurd h.symm hlast
      · intro h
        cases h with
        | inl h => exact absurd h hblank
        | inr h => exact absurd h hlast

/-! ## Transports in use -/

/-- The transport that carries the operation. -/
def Operation.transport? : Operation → Option TransportRef
  | .starting _ stage => stage.transport?
  | .closing _ | .closed _ => none

/-- The transport carries a start in progress. -/
def CarriesStart (operations : Table Operation) (t : TransportRef) : Prop :=
  ∃ i op, operations.get? i = some op ∧ op.transport? = some t

namespace CarriesStart

variable {operations : Table Operation} {t : TransportRef}

theorem add (h : CarriesStart operations t) (op : Operation) :
    CarriesStart (operations.add op) t := by
  obtain ⟨i, op', hi, ht⟩ := h
  have hlt := Table.lt_next_of_get? hi
  exact ⟨i, op', by simp [Table.get?_add, Nat.ne_of_lt hlt, hi], ht⟩

theorem put (h : CarriesStart operations t) {i : Nat} {op op' : Operation}
    (hop : operations.get? i = some op)
    (hkeep : op.transport? = some t → op'.transport? = some t) :
    CarriesStart (operations.put i op') t := by
  obtain ⟨j, opj, hj, ht⟩ := h
  by_cases hji : j = i
  · subst hji
    obtain rfl := Option.some.inj (hop.symm.trans hj)
    exact ⟨j, op', by simp [Table.get?_put hop], hkeep ht⟩
  · exact ⟨j, opj, by simp [Table.get?_put hop, hji, hj], ht⟩

/-- An operation that ends leaves the other ones their transports. -/
theorem erase (h : CarriesStart operations t) {i : Nat} {op : Operation}
    (hop : operations.get? i = some op) :
    op.transport? = some t ∨ CarriesStart (operations.erase i) t := by
  obtain ⟨j, opj, hj, ht⟩ := h
  by_cases hji : j = i
  · subst hji
    obtain rfl := Option.some.inj (hop.symm.trans hj)
    exact .inl ht
  · exact .inr ⟨j, opj, by simp [Table.get?_erase, hji, hj], ht⟩

end CarriesStart

namespace Lifecycle

open Run

/-- The transport carries the connection of the context, or a start in progress. -/
def Carries (s : Lifecycle) (t : TransportRef) : Prop :=
  s.context.transport = some t ∨ CarriesStart s.operations t

/-- The transport carries neither the connection of the context nor a start in progress. -/
def Stale (s : Lifecycle) (t : TransportRef) : Prop := ¬ s.Carries t

/-- The close handler of the transport finds the context as it would leave it. -/
def AlreadyReset (s : Lifecycle) (t : TransportRef) (message : String) : Prop :=
  s.context.status =
      (if isLazyStartApplicable s.globalEnabled t.serverEntity && t.serverEntity.enabled
        then .sleeping else .error) ∧
    s.context.connection = none ∧ s.context.transport = none ∧ s.context.tokenRefresh = none ∧
    (isBlank message = true ∨ s.context.lastError = some message)

/-- The close of a transport that is not the context's is planned, or finds another transport in
    the context, or nothing to reset. -/
def ClosesQuietly (s : Lifecycle) (t : TransportRef) (message : String) : Prop :=
  t ∈ s.plannedTransportCloses ∨ s.context.transport.isSome = true ∨ s.AlreadyReset t message

variable {s s' : Lifecycle}

theorem closedContext_eq_iff (t : TransportRef) (message : String) :
    s.closedContext t message = s.context ↔ s.AlreadyReset t message := by
  obtain ⟨lastError, heq⟩ := s.context.recordServerStartupError_eq message
  have hlast := s.context.recordServerStartupError_lastError message
  rw [heq] at hlast
  unfold closedContext AlreadyReset
  rw [heq, ← hlast]
  -- both sides compare the five fields
  constructor
  · intro h
    have hstatus := congrArg ConnectionState.status h
    have hconn := congrArg ConnectionState.connection h
    have htransport := congrArg ConnectionState.transport h
    have hrefresh := congrArg ConnectionState.tokenRefresh h
    have herror := congrArg ConnectionState.lastError h
    exact ⟨hstatus.symm, hconn.symm, htransport.symm, hrefresh.symm, herror⟩
  · rintro ⟨hstatus, hconn, htransport, hrefresh, herror⟩
    cases hcontext : s.context with
    | mk status connection transport tokenRefresh lastError' =>
      simp only [hcontext] at hstatus hconn htransport hrefresh herror
      subst hstatus hconn htransport hrefresh herror
      rfl

variable {t : TransportRef}

/-- A close event of a transport that the context does not have leaves the context alone exactly
    when it is quiet. -/
theorem onclose_context_eq_iff (ht : s.context.transport ≠ some t) (message : String) :
    (s.onclose t message).context = s.context ↔ s.ClosesQuietly t message := by
  unfold onclose ClosesQuietly
  by_cases hplanned : t ∈ s.plannedTransportCloses
  · simp [hplanned]
  · by_cases hsome : s.context.transport.isSome = true
    · simp [hplanned, hsome, ht]
    · rw [if_neg hplanned, if_neg (fun h => hsome h.1)]
      simp only [hplanned, hsome, Bool.false_eq_true, false_or]
      exact closedContext_eq_iff t message

/-! ## The condition -/

/-- The transports that a step takes from the context or from a start that it ends. -/
def givesUp (s : Lifecycle) : LifecycleAction → List TransportRef
  | .connected _ | .modernConnected _ | .closeCompletes _ => s.context.transport.toList
  | .ready start =>
    ((s.stage? start).bind (·.2.transport?)).toList.filter (s.context.transport ≠ some ·)
  | .startFails start _ =>
    ((s.stage? start).bind (·.2.transport?)).toList ++ s.context.transport.toList
  | _ => []

/-- The transports that the step gives up are planned to close or have closed, and a transport
    that closes is planned to or closes for the first time. -/
def plansCloses (s : Lifecycle) (a : LifecycleAction) : Bool :=
  (s.givesUp a).all (fun t =>
      s.closedTransports.contains t || s.plannedTransportCloses.contains t) &&
    match a with
    | .transportClosed t _ =>
      s.plannedTransportCloses.contains t || !s.closedTransports.contains t
    | _ => true

/-- Every transport that has not closed yet is planned to close, or carries something. -/
def Tracked (s : Lifecycle) : Prop :=
  ∀ t ∈ s.transports, t ∉ s.closedTransports → t ∈ s.plannedTransportCloses ∨ s.Carries t

variable {a : LifecycleAction}

theorem closed_or_planned (h : s.plansCloses a = true)
    (ht : t ∈ s.givesUp a) : t ∈ s.closedTransports ∨ t ∈ s.plannedTransportCloses := by
  simp only [plansCloses, Bool.and_eq_true, List.all_eq_true] at h
  simpa using h.1 t ht

/-! ## What each step keeps track of -/

/-- Starts may have begun; otherwise nothing that has to do with transports has changed. -/
structure SameTransports (s s' : Lifecycle) : Prop where
  transport : s'.context.transport = s.context.transport
  planned : s'.plannedTransportCloses = s.plannedTransportCloses
  transports : s'.transports = s.transports
  closed : s'.closedTransports = s.closedTransports
  operations : ∀ t, CarriesStart s.operations t → CarriesStart s'.operations t

theorem SameTransports.refl (s : Lifecycle) : s.SameTransports s :=
  ⟨rfl, rfl, rfl, rfl, fun _ h => h⟩

theorem SameTransports.trans {s₁ s₂ s₃ : Lifecycle} (h : s₁.SameTransports s₂)
    (h' : s₂.SameTransports s₃) : s₁.SameTransports s₃ where
  transport := h'.transport.trans h.transport
  planned := h'.planned.trans h.planned
  transports := h'.transports.trans h.transports
  closed := h'.closed.trans h.closed
  operations t ht := h'.operations t (h.operations t ht)

theorem Tracked.of_same (h : s.Tracked) (hsame : s.SameTransports s') : s'.Tracked := by
  intro t ht hclosed
  rw [hsame.transports] at ht
  rw [hsame.closed] at hclosed
  rcases h t ht hclosed with hplanned | hcontext | hstart
  · exact .inl (hsame.planned ▸ hplanned)
  · exact .inr (.inl (hsame.transport.trans hcontext))
  · exact .inr (.inr (hsame.operations t hstart))

theorem sameTransports_createServerConnection (s : Lifecycle) :
    s.SameTransports s.createServerConnection := by
  rcases createServerConnection_cases s with ⟨-, heq⟩ | ⟨-, -, heq⟩
  · rw [heq]
    exact .refl s
  · rw [heq]
    exact ⟨rfl, rfl, rfl, rfl, fun t ht => ht.add _⟩

theorem sameTransports_addServerTail (s : Lifecycle) (serverEntity : LaunchSettings) :
    s.SameTransports (s.addServerTail serverEntity) := by
  have hentity : s.SameTransports { s with serverEntity } := ⟨rfl, rfl, rfl, rfl, fun _ h => h⟩
  rcases addServerTail_cases s serverEntity with heq | heq
  · rw [heq]
    exact hentity
  · rw [heq]
    exact hentity.trans (sameTransports_createServerConnection _)

theorem sameTransports_createTemporaryServer (s : Lifecycle) (serverEntity : LaunchSettings)
    (sleep : Bool) : s.SameTransports (s.createTemporaryServer serverEntity sleep) := by
  have hentity : s.SameTransports { s with serverEntity } := ⟨rfl, rfl, rfl, rfl, fun _ h => h⟩
  unfold createTemporaryServer
  simp only
  split
  · exact hentity
  · split
    · exact ⟨rfl, rfl, rfl, rfl, fun _ h => h⟩
    · exact hentity.trans (sameTransports_createServerConnection _)

theorem sameTransports_restored (s : Lifecycle) (row : Option LaunchSettings) :
    s.SameTransports (s.restored row) := by
  cases row with
  | none => exact .refl s
  | some server =>
    change s.SameTransports (s.restoreServerContext server)
    unfold restoreServerContext
    simp only
    split
    · exact ⟨rfl, rfl, rfl, rfl, fun _ h => h⟩
    · exact ⟨rfl, rfl, rfl, rfl, fun _ h => h⟩

theorem sameTransports_addCall (s : Lifecycle) (waitsFor : EnsureWait) :
    s.SameTransports (s.addCall waitsFor) :=
  ⟨rfl, rfl, rfl, rfl, fun _ h => h⟩

theorem sameTransports_wakeupServer (s : Lifecycle) (hasToken : Bool) :
    s.SameTransports (s.wakeupServer hasToken) := by
  unfold wakeupServer
  split
  · have h := sameTransports_createServerConnection s
    exact ⟨h.transport, h.planned, h.transports, h.closed, h.operations⟩
  · exact sameTransports_addCall s _

theorem sameTransports_of_arrives {hasToken : Bool} (ha : Arrives s hasToken s') :
    s.SameTransports s' := by
  cases ha with
  | wakesUp => exact sameTransports_wakeupServer s hasToken
  | online | queued | settled | waits => exact sameTransports_addCall s _

theorem sameTransports_afterDisconnect (s : Lifecycle) (caller : Disconnect) :
    s.SameTransports (s.afterDisconnect caller) := by
  cases caller with
  | sleepServer => exact .refl s
  | removeServer => exact ⟨rfl, rfl, rfl, rfl, fun _ h => h⟩
  | addServer serverEntity =>
    have hclear : s.SameTransports { s with context := s.context.clearError } :=
      ⟨rfl, rfl, rfl, rfl, fun _ h => h⟩
    exact hclear.trans (sameTransports_addServerTail _ serverEntity)
  | reconnectServer serverEntity =>
    have hclear : s.SameTransports { s with context := s.context.clearError, serverEntity } :=
      ⟨rfl, rfl, rfl, rfl, fun _ h => h⟩
    simp only [afterDisconnect]
    split
    · exact hclear.trans (sameTransports_createServerConnection _)
    · exact ⟨rfl, rfl, rfl, rfl, fun _ h => h⟩

/-- A start goes on without giving up a transport. -/
theorem sameTransports_setOperation {i : Nat} {op op' : Operation}
    (hop : s.operations.get? i = some op)
    (hkeep : ∀ t, op.transport? = some t → op'.transport? = some t) :
    s.SameTransports (s.setOperation i op') :=
  ⟨rfl, rfl, rfl, rfl, fun t ht => ht.put hop (hkeep t)⟩

/-- A disconnect plans the close of the transport that it takes from the context. -/
theorem Tracked.disconnectServerContext (h : s.Tracked) (caller : Disconnect) :
    (s.disconnectServerContext caller).Tracked := by
  intro t ht hclosed
  have hplanned : (s.disconnectServerContext caller).plannedTransportCloses =
      s.plannedTransportCloses ++ s.context.transport.toList := rfl
  rw [hplanned, List.mem_append]
  -- the transport of the context is the one that is planned now
  rcases h t ht hclosed with hold | hcontext | hstart
  · exact .inl (.inl hold)
  · exact .inl (.inr (by simp [hcontext]))
  · exact .inr (.inr (hstart.add _))

/-- A start opens a transport, which then carries it. -/
theorem Tracked.openTransport (h : s.Tracked) {start : Nat} {op : Operation}
    (hop : s.operations.get? start = some op) (hnone : op.transport? = none)
    (serverEntity : LaunchSettings) (fallback : Bool) :
    (s.openTransport start serverEntity fallback).Tracked := by
  intro t ht hclosed
  have htransports : (s.openTransport start serverEntity fallback).transports =
      s.transports ++ [⟨s.transports.length, serverEntity⟩] := rfl
  rw [htransports, List.mem_append, List.mem_singleton] at ht
  -- an older transport carries what it carried, the new one carries the start
  rcases ht with hold | rfl
  · rcases h t hold hclosed with hplanned | hcontext | hstart
    · exact .inl hplanned
    · exact .inr (.inl hcontext)
    · exact .inr (.inr (hstart.put hop (fun heq => by simp [hnone] at heq)))
  · refine .inr (.inr ⟨start,
      .starting serverEntity (.connecting ⟨s.transports.length, serverEntity⟩ fallback), ?_, rfl⟩)
    exact (Table.get?_put hop _ _).trans (if_pos rfl)

/-- A step gives up transports that are planned to close or have closed. -/
theorem Tracked.of_givesUp (h : s.Tracked) (hcond : s.plansCloses a = true)
    (htransports : s'.transports = s.transports)
    (hplanned : s'.plannedTransportCloses = s.plannedTransportCloses)
    (hclosed : s'.closedTransports = s.closedTransports)
    (hcarries : ∀ t, s.Carries t → t ∈ s.givesUp a ∨ s'.Carries t) : s'.Tracked := by
  intro t ht hopen
  rw [htransports] at ht
  rw [hclosed] at hopen
  rw [hplanned]
  -- a transport that is given up was planned to close or has closed
  rcases h t ht hopen with hold | hcarried
  · exact .inl hold
  · rcases hcarries t hcarried with hgiven | hstill
    · rcases closed_or_planned hcond hgiven with hshut | hold
      · exact absurd hshut hopen
      · exact .inl hold
    · exact .inr hstill

/-- The transports after a close event: the one that closed is not open any more. -/
theorem Tracked.transportClosed (h : s.Tracked) (t : TransportRef) (message : String) :
    Tracked { s.onclose t message with closedTransports := s.closedTransports ++ [t] } := by
  intro u hu hopen
  simp only [List.mem_append, List.mem_singleton, not_or] at hopen
  obtain ⟨hopen, hne⟩ := hopen
  unfold onclose at hu ⊢
  -- planned, ignored as stale, or the context is reset
  split at hu
  · next hplanned =>
    rw [if_pos hplanned]
    rcases h u hu hopen with hold | hcarried
    · exact .inl (List.mem_filter.mpr ⟨hold, by simpa using hne⟩)
    · exact .inr hcarried
  · next hplanned =>
    rw [if_neg hplanned]
    split at hu
    · next hstale =>
      rw [if_pos hstale]
      exact h u hu hopen
    · next hstale =>
      rw [if_neg hstale]
      rcases h u hu hopen with hold | hcontext | hstart
      · exact .inl hold
      · -- the context has no transport but the one that closed
        have heq : s.context.transport = some t := by
          by_contra hother
          exact hstale ⟨by simp [hcontext], hother⟩
        exact absurd (Option.some.inj (hcontext.symm.trans heq)) hne
      · exact .inr (.inr hstart)

theorem mem_givesUp_of_stage {start : Nat} {serverEntity : LaunchSettings} {stage : StartStage}
    (hop : s.operations.get? start = some (.starting serverEntity stage))
    (ht : stage.transport? = some t) (message : String) :
    t ∈ s.givesUp (.startFails start message) := by
  simp [givesUp, stage?_eq_some.mpr hop, ht]

/-- What an action keeps track of. -/
theorem Tracked.acts (h : s.Tracked) (hcond : s.plansCloses a = true)
    (ha : Acts s a s') : s'.Tracked := by
  -- only the steps of `givesUp` take a transport away; the others keep the transports as they are
  cases ha with
  | ensureServerAvailable row hasToken =>
    exact h.of_same ((sameTransports_restored s row).trans
      (sameTransports_of_arrives (arrives_ensureServerAvailable _ hasToken)))
  | addServerChanged _ | reconnectServer _ | removeServer
  | sleepServer => exact h.disconnectServerContext _
  | addServerSame serverEntity => exact h.of_same (sameTransports_addServerTail s serverEntity)
  | createTemporaryServer serverEntity sleep =>
    exact h.of_same (sameTransports_createTemporaryServer s serverEntity sleep)
  | prepared _ _ _ _ hop | modernReady _ _ hop =>
    exact h.of_same ⟨rfl, rfl, rfl, rfl, fun t ht => ht.put hop (fun heq => by cases heq)⟩
  | modernConnected _ _ hop | closeCompletes _ _ hop =>
    refine h.of_givesUp hcond rfl rfl rfl ?_
    rintro t (hcontext | hstart)
    · exact .inl (by simp [givesUp, hcontext])
    · exact .inr (.inr (hstart.put hop (fun heq => by cases heq)))
  | modernFailed start serverEntity stage hop hstage =>
    apply h.of_same (sameTransports_setOperation hop _)
    intro t heq
    rcases hstage with rfl | rfl <;> cases heq
  | transportCreated start serverEntity hop => exact h.openTransport hop rfl serverEntity false
  | httpFailed start serverEntity t hop =>
    intro u hu hopen
    rcases h u hu hopen with hold | hcontext | hstart
    · exact .inl (List.mem_append_left _ hold)
    · exact .inr (.inl hcontext)
    · -- the transport that could not connect is planned to close
      by_cases hut : u = t
      · exact .inl (by simp [hut, setOperation])
      · refine .inr (.inr (hstart.put hop (fun heq => ?_)))
        exact absurd (Option.some.inj heq).symm hut
  | fallbackCreated start serverEntity t hop => exact h.openTransport hop rfl serverEntity true
  | connected start serverEntity t fallback hop =>
    refine h.of_givesUp hcond rfl rfl rfl ?_
    rintro u (hcontext | hstart)
    · exact .inl (by simp [givesUp, hcontext])
    · exact .inr (.inr (hstart.put hop (fun heq => heq)))
  | ready start serverEntity t hop =>
    refine h.of_givesUp hcond rfl rfl rfl ?_
    rintro u (hcontext | hstart)
    · exact .inr (.inl hcontext)
    -- the start's transport is in the context by now, unless another start has replaced it
    · by_cases hut : u = t
      · subst hut
        by_cases hcontext : s.context.transport = some u
        · exact .inr (.inl hcontext)
        · exact .inl (by
            simp [givesUp, stage?_eq_some.mpr hop, StartStage.transport?, hcontext])
      · refine .inr (.inr (hstart.put hop (fun heq => ?_)))
        exact absurd (Option.some.inj heq).symm hut
  | startReturns start serverEntity hop =>
    refine h.of_same ⟨rfl, rfl, rfl, rfl, fun t ht => ?_⟩
    rcases ht.erase hop with heq | hstill
    · cases heq
    · exact hstill
  | startFails start message serverEntity stage hop =>
    refine h.of_givesUp hcond rfl rfl rfl ?_
    rintro t (hcontext | hstart)
    · exact .inl (by simp [givesUp, hcontext])
    · rcases hstart.erase hop with heq | hstill
      · exact .inl (mem_givesUp_of_stage hop heq message)
      · exact .inr (.inr hstill)
  | disconnectReturns i caller hop =>
    have herase : s.SameTransports (s.removeOperation i) := by
      refine ⟨rfl, rfl, rfl, rfl, fun t ht => ?_⟩
      rcases ht.erase hop with heq | hstill
      · cases heq
      · exact hstill
    exact h.of_same (herase.trans (sameTransports_afterDisconnect _ caller))
  | queueCleared | ensureReturns
  | ensureThrows => exact h.of_same ⟨rfl, rfl, rfl, rfl, fun _ ht => ht⟩
  | transportClosed t message => exact h.transportClosed t message

/-! ## Runs -/

theorem sameTransports_observe (s : Lifecycle) : s.SameTransports s.observe := by
  unfold observe
  split
  · exact ⟨rfl, rfl, rfl, rfl, fun _ h => h⟩
  · exact .refl s

theorem tracked_of_run {globalEnabled : Bool} {serverEntity : LaunchSettings}
    {trs : List (Transition Lifecycle LifecycleAction)}
    (hrun : IsRun step (init globalEnabled serverEntity) trs s)
    (hcond : ∀ tr ∈ trs, tr.pre.plansCloses tr.act = true) : s.Tracked := by
  refine IsRun.history_of (G := fun tr => tr.pre.plansCloses tr.act = true)
    (P := fun _ s => s.Tracked) ?_ ?_ hrun hcond
  · intro t ht
    cases ht
  · intro _ s a s' _ h hstep hok
    obtain ⟨s₁, hacts, rfl⟩ := acts_of_step hstep
    exact (h.acts hok hacts).of_same (sameTransports_observe s₁)

/-- A stale close leaves status, connection, transport, token refresh and last error alone. -/
def IgnoresStaleClose (tr : Transition Lifecycle LifecycleAction) : Prop :=
  ∀ t message, tr.act = .transportClosed t message → tr.pre.Stale t →
    tr.post.context = tr.pre.context

theorem context_of_transportClosed {message : String}
    (h : s.step (.transportClosed t message) = some s') :
    s'.context = (s.onclose t message).context := by
  obtain ⟨s₁, hacts, rfl⟩ := acts_of_step h
  rw [observe_context]
  cases hacts with
  | transportClosed => rfl

/-- Whether a step ignores a stale close can be read off the state before it. -/
theorem ignoresStaleClose_iff {tr : Transition Lifecycle LifecycleAction}
    (hstep : tr.pre.step tr.act = some tr.post) :
    IgnoresStaleClose tr ↔ ∀ t message, tr.act = .transportClosed t message → tr.pre.Stale t →
      tr.pre.ClosesQuietly t message := by
  have hiff : ∀ t message, tr.act = .transportClosed t message → tr.pre.Stale t →
      (tr.post.context = tr.pre.context ↔ tr.pre.ClosesQuietly t message) := by
    intro t message hact hstale
    rw [hact] at hstep
    rw [context_of_transportClosed hstep]
    exact onclose_context_eq_iff (fun heq => hstale (.inl heq)) message
  constructor
  · intro h t message hact hstale
    exact (hiff t message hact hstale).mp (h t message hact hstale)
  · intro h t message hact hstale
    exact (hiff t message hact hstale).mpr (h t message hact hstale)

/-- A run ignores its stale closes exactly when each of them is quiet: it is planned, or the
    context has another transport, or there is nothing to reset. It does whenever every
    transport is planned to close, or has closed, by the time it is given up, and closes once
    unless it is planned to. -/
theorem stale_closes_ignored_iff (globalEnabled : Bool) (serverEntity : LaunchSettings)
    (trs : List (Transition Lifecycle LifecycleAction)) (s : Lifecycle)
    (hrun : IsRun step (init globalEnabled serverEntity) trs s) :
    ((∀ tr ∈ trs, IgnoresStaleClose tr) ↔
        ∀ tr ∈ trs, ∀ t message, tr.act = .transportClosed t message → tr.pre.Stale t →
          tr.pre.ClosesQuietly t message) ∧
      ((∀ tr ∈ trs, tr.pre.plansCloses tr.act = true) → ∀ tr ∈ trs, IgnoresStaleClose tr) := by
  have hiff : ∀ tr ∈ trs, _ := fun tr htr => ignoresStaleClose_iff (hrun.step_of_mem htr)
  constructor
  · constructor
    · intro h tr htr
      exact (hiff tr htr).mp (h tr htr)
    · intro h tr htr
      exact (hiff tr htr).mpr (h tr htr)
  · intro hcond tr htr
    obtain ⟨xs, ys, rfl⟩ := List.append_of_mem htr
    obtain ⟨hpre, hstep, -⟩ := hrun.split
    have htracked : tr.pre.Tracked := tracked_of_run hpre
      (fun tr' htr' => hcond tr' (List.mem_append_left _ htr'))
    rw [hiff tr htr]
    intro t message hact hstale
    have hok := hcond tr htr
    rw [hact] at hok hstep
    obtain ⟨s₁, hacts, -⟩ := acts_of_step hstep
    cases hacts with
    | transportClosed _ _ hmem =>
      simp only [plansCloses, Bool.and_eq_true, Bool.or_eq_true, Bool.not_eq_true',
        List.contains_eq_mem, decide_eq_true_eq, decide_eq_false_iff_not] at hok
      rcases hok.2 with hplanned | hopen
      · exact .inl hplanned
      · rcases htracked t hmem hopen with hplanned | hcarries
        · exact .inl hplanned
        · exact absurd hcarries hstale

/-- The HTTP transport of a start closes after the fallback, and the one of a reconnect during
    the next start. -/
def fallbackAndReconnect : List LifecycleAction :=
  [.addServer lazySettings, .prepared 0 false false, .transportCreated 0, .httpFailed 0,
    .fallbackCreated 0, .transportClosed ⟨0, lazySettings⟩ "closed", .connected 0, .ready 0,
    .startReturns 0, .reconnectServer lazySettings, .closeCompletes 1, .disconnectReturns 1,
    .transportClosed ⟨1, lazySettings⟩ "closed"]

theorem stale_closes_ignored_fallbackAndReconnect :
    (exec step (init true lazySettings) fallbackAndReconnect).isSome = true ∧
      ∀ tr ∈ trace step (init true lazySettings) fallbackAndReconnect, IgnoresStaleClose tr := by
  refine ⟨by decide, ?_⟩
  apply (stale_closes_ignored_iff true lazySettings _
    ((exec step (init true lazySettings) fallbackAndReconnect).get (by decide))
    (isRun_trace _ _ _ (by simp))).2
  decide

/-- A start fails after it has opened its transport, and the transport closes during the next
    start. -/
def closeAfterFailedStart : List LifecycleAction :=
  [.addServer lazySettings, .prepared 0 false false, .transportCreated 0,
    .startFails 0 "Request timed out", .ensureServerAvailable none true,
    .transportClosed ⟨0, lazySettings⟩ "Transport closed by server"]

/-- The close of the transport of a failed start resets the start after it. -/
theorem stale_close_resets_start :
    ¬ ∀ (globalEnabled : Bool) (serverEntity : LaunchSettings)
      (trs : List (Transition Lifecycle LifecycleAction)) (s : Lifecycle),
      IsRun step (init globalEnabled serverEntity) trs s → ∀ tr ∈ trs, IgnoresStaleClose tr := by
  intro h
  have hrun : IsRun step (init true lazySettings)
      (trace step (init true lazySettings) closeAfterFailedStart)
      ((exec step (init true lazySettings) closeAfterFailedStart).get (by decide)) :=
    isRun_trace _ _ _ (by simp)
  have hlast : ∃ tr ∈ trace step (init true lazySettings) closeAfterFailedStart,
      tr.act = .transportClosed ⟨0, lazySettings⟩ "Transport closed by server" ∧
        tr.pre.context.transport = none ∧
        tr.pre.operations = ⟨[none, some (.starting lazySettings .preparing)]⟩ ∧
        tr.pre.context.status = .connecting ∧ tr.post.context.status = .sleeping := by
    decide
  obtain ⟨tr, htr, hact, htransport, hops, hbefore, hafter⟩ := hlast
  have hstale : tr.pre.Stale ⟨0, lazySettings⟩ := by
    rintro (hcontext | ⟨i, op, hi, hcarried⟩)
    · rw [htransport] at hcontext
      cases hcontext
    · rw [hops] at hi
      have hop : op = .starting lazySettings .preparing := by
        cases i with
        | zero => cases hi
        | succ i =>
          cases i with
          | zero => exact (Option.some.inj hi).symm
          | succ i => cases hi
      rw [hop] at hcarried
      cases hcarried
  have hkept := h true lazySettings _ _ hrun tr htr _ _ hact hstale
  have hstatus := congrArg ConnectionState.status hkept
  rw [hbefore, hafter] at hstatus
  cases hstatus

end Lifecycle

end PetaCore
