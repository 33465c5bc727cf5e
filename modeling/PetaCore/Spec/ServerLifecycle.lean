import PetaCore.Core.ServerLifecycle
import PetaCore.ForStd.Run

/-!
# Slow closes

A disconnect publishes its status when it begins and clears the context when the close of the
connection completes, whatever connection the context has by then. A start does not wait for
disconnects. So a connection survives only if no disconnect that began before its start is
still open when the context goes online with it.

`Acts` lists what a step can be; the modules on starts and on transport closes use it too.

## Key results

- `slow_close_harmless`: as long as no start goes online over an open disconnect that is older,
  and modern starts find their connection in place, no connection is cleared by an earlier
  disconnect, and an idle context is online exactly when it has a connection
- `slow_close_clears_connection`: a wake-up during the close of a sleeping server
-/

namespace PetaCore

/-- The start that an action is a step of. -/
def LifecycleAction.start? : LifecycleAction → Option Nat
  | .prepared start _ _ | .modernConnected start | .modernFailed start | .modernReady start
  | .transportCreated start | .httpFailed start | .fallbackCreated start | .connected start
  | .ready start | .startReturns start | .startFails start _ => some start
  | _ => none

namespace Lifecycle

open Run

/-! ## What a step can be -/

/-- The outcomes of an action. -/
inductive Acts (s : Lifecycle) : LifecycleAction → Lifecycle → Prop where
  | ensureServerAvailable (restored : Option LaunchSettings) (hasToken : Bool) :
      Acts s (.ensureServerAvailable restored hasToken)
        ((s.restored restored).ensureServerAvailable hasToken)
  | addServerChanged (serverEntity : LaunchSettings)
      (hconfig : s.serverEntity.launchConfig ≠ serverEntity.launchConfig) :
      Acts s (.addServer serverEntity) (s.disconnectServerContext (.addServer serverEntity))
  | addServerSame (serverEntity : LaunchSettings)
      (hconfig : s.serverEntity.launchConfig = serverEntity.launchConfig) :
      Acts s (.addServer serverEntity) (s.addServerTail serverEntity)
  | reconnectServer (serverEntity : LaunchSettings) :
      Acts s (.reconnectServer serverEntity)
        (s.disconnectServerContext (.reconnectServer serverEntity))
  | removeServer : Acts s .removeServer (s.disconnectServerContext .removeServer)
  | sleepServer : Acts s .sleepServer (s.disconnectServerContext .sleepServer)
  | createTemporaryServer (serverEntity : LaunchSettings) (sleep : Bool) :
      Acts s (.createTemporaryServer serverEntity sleep)
        (s.createTemporaryServer serverEntity sleep)
  | prepared (start : Nat) (refreshes probe : Bool) (serverEntity : LaunchSettings)
      (hop : s.operations.get? start = some (.starting serverEntity .preparing)) :
      Acts s (.prepared start refreshes probe)
        ({ s with context.tokenRefresh :=
          if refreshes then some start else s.context.tokenRefresh }.setOperation start
            (.starting serverEntity (if probe then .probing else .opening)))
  | modernConnected (start : Nat) (serverEntity : LaunchSettings)
      (hop : s.operations.get? start = some (.starting serverEntity .probing)) :
      Acts s (.modernConnected start)
        ({ s with context.connection := some ⟨start⟩, context.transport := none }.setOperation
          start (.starting serverEntity .modernStored))
  | modernFailed (start : Nat) (serverEntity : LaunchSettings) (stage : StartStage)
      (hop : s.operations.get? start = some (.starting serverEntity stage))
      (hstage : stage = .probing ∨ stage = .modernStored) :
      Acts s (.modernFailed start) (s.setOperation start (.starting serverEntity .opening))
  | modernReady (start : Nat) (serverEntity : LaunchSettings)
      (hop : s.operations.get? start = some (.starting serverEntity .modernStored)) :
      Acts s (.modernReady start)
        ({ s with context := { s.context with status := .online }.clearError }.setOperation
          start (.starting serverEntity .logging))
  | transportCreated (start : Nat) (serverEntity : LaunchSettings)
      (hop : s.operations.get? start = some (.starting serverEntity .opening)) :
      Acts s (.transportCreated start) (s.openTransport start serverEntity false)
  | httpFailed (start : Nat) (serverEntity : LaunchSettings) (t : TransportRef)
      (hop : s.operations.get? start = some (.starting serverEntity (.connecting t false))) :
      Acts s (.httpFailed start)
        ({ s with plannedTransportCloses := s.plannedTransportCloses ++ [t] }.setOperation
          start (.starting serverEntity (.fallingBack t)))
  | fallbackCreated (start : Nat) (serverEntity : LaunchSettings) (t : TransportRef)
      (hop : s.operations.get? start = some (.starting serverEntity (.fallingBack t))) :
      Acts s (.fallbackCreated start) (s.openTransport start serverEntity true)
  | connected (start : Nat) (serverEntity : LaunchSettings) (t : TransportRef) (fallback : Bool)
      (hop : s.operations.get? start = some (.starting serverEntity (.connecting t fallback))) :
      Acts s (.connected start)
        ({ s with context :=
          { s.context with status := .online, connection := some ⟨start⟩, transport := some t }
          }.setOperation start (.starting serverEntity (.stored t)))
  | ready (start : Nat) (serverEntity : LaunchSettings) (t : TransportRef)
      (hop : s.operations.get? start = some (.starting serverEntity (.stored t))) :
      Acts s (.ready start)
        ({ s with context := s.context.clearError }.setOperation start
          (.starting serverEntity .logging))
  | startReturns (start : Nat) (serverEntity : LaunchSettings)
      (hop : s.operations.get? start = some (.starting serverEntity .logging)) :
      Acts s (.startReturns start) ((s.removeOperation start).settle start true)
  | startFails (start : Nat) (message : String) (serverEntity : LaunchSettings)
      (stage : StartStage)
      (hop : s.operations.get? start = some (.starting serverEntity stage)) :
      Acts s (.startFails start message) (s.startFails start serverEntity message)
  | closeCompletes (i : Nat) (caller : Disconnect)
      (hop : s.operations.get? i = some (.closing caller)) :
      Acts s (.closeCompletes i)
        ({ s with context := s.context.clearConnectionState caller.status }.setOperation i
          (.closed caller))
  | disconnectReturns (i : Nat) (caller : Disconnect)
      (hop : s.operations.get? i = some (.closed caller)) :
      Acts s (.disconnectReturns i) ((s.removeOperation i).afterDisconnect caller)
  | queueCleared (start : Nat) (ok : Bool) (hqueue : s.waitQueue = some ⟨start, some ok⟩) :
      Acts s .queueCleared { s with waitQueue := none }
  | ensureReturns (call : Nat) :
      Acts s (.ensureReturns call) { s with calls := s.calls.erase call }
  | ensureThrows (call : Nat) :
      Acts s (.ensureThrows call) { s with calls := s.calls.erase call }
  | transportClosed (t : TransportRef) (message : String) (ht : t ∈ s.transports) :
      Acts s (.transportClosed t message)
        { s.onclose t message with closedTransports := s.closedTransports ++ [t] }

variable {s : Lifecycle}

theorem stage?_eq_some {i : Nat} {serverEntity : LaunchSettings} {stage : StartStage} :
    s.stage? i = some (serverEntity, stage) ↔
      s.operations.get? i = some (.starting serverEntity stage) := by
  unfold stage?
  cases s.operations.get? i with
  | none => simp
  | some op => cases op <;> simp

variable {s' : Lifecycle} {a : LifecycleAction}

/-- A step of a start finds the start under way. -/
theorem startStep_of_match {start : Nat}
    (h : (match s.stage? start with
      | some (serverEntity, stage) => s.startStep start serverEntity stage a
      | none => none) = some s') :
    ∃ serverEntity stage, s.operations.get? start = some (.starting serverEntity stage) ∧
      s.startStep start serverEntity stage a = some s' := by
  cases hstage : s.stage? start with
  | none => simp [hstage] at h
  | some p =>
    rw [hstage] at h
    exact ⟨p.1, p.2, stage?_eq_some.mp hstage, h⟩

/-- A step of a start is the one of the stage that the start is in. -/
theorem acts_of_startStep {start : Nat} {serverEntity : LaunchSettings} {stage : StartStage}
    (hop : s.operations.get? start = some (.starting serverEntity stage))
    (h : s.startStep start serverEntity stage a = some s')
    (ha : a.start? = some start) : Acts s a s' := by
  -- an action belongs to one or two stages; `startStep` is undefined at the others
  cases a with
  | prepared i refreshes probe =>
    cases ha
    cases stage with
    | preparing =>
      cases h
      exact .prepared _ refreshes probe serverEntity hop
    | _ => cases h
  | modernConnected i =>
    cases ha
    cases stage with
    | probing =>
      cases h
      exact .modernConnected _ serverEntity hop
    | _ => cases h
  | modernFailed i =>
    cases ha
    cases stage with
    | probing =>
      cases h
      exact .modernFailed _ serverEntity _ hop (.inl rfl)
    | modernStored =>
      cases h
      exact .modernFailed _ serverEntity _ hop (.inr rfl)
    | _ => cases h
  | modernReady i =>
    cases ha
    cases stage with
    | modernStored =>
      cases h
      exact .modernReady _ serverEntity hop
    | _ => cases h
  | transportCreated i =>
    cases ha
    cases stage with
    | opening =>
      cases h
      exact .transportCreated _ serverEntity hop
    | _ => cases h
  | httpFailed i =>
    cases ha
    cases stage with
    | connecting t fallback =>
      cases fallback with
      | false =>
        cases h
        exact .httpFailed _ serverEntity t hop
      | true => cases h
    | _ => cases h
  | fallbackCreated i =>
    cases ha
    cases stage with
    | fallingBack t =>
      cases h
      exact .fallbackCreated _ serverEntity t hop
    | _ => cases h
  | connected i =>
    cases ha
    cases stage with
    | connecting t fallback =>
      cases h
      exact .connected _ serverEntity t fallback hop
    | _ => cases h
  | ready i =>
    cases ha
    cases stage with
    | stored t =>
      cases h
      exact .ready _ serverEntity t hop
    | _ => cases h
  | startReturns i =>
    cases ha
    cases stage with
    | logging =>
      cases h
      exact .startReturns _ serverEntity hop
    | _ => cases h
  | startFails i message =>
    cases ha
    -- a start that writes its log entry has nothing left to fail
    cases stage with
    | logging => cases h
    | _ =>
      cases h
      exact .startFails _ message serverEntity _ hop
  | _ => cases ha

theorem acts_of_act (h : s.act a = some s') :
    Acts s a s' := by
  cases a with
  | ensureServerAvailable restored hasToken =>
    simp only [act, Option.ite_none_right_eq_some, Option.some.injEq] at h
    obtain ⟨-, rfl⟩ := h
    exact .ensureServerAvailable restored hasToken
  | addServer serverEntity =>
    simp only [act, Option.ite_none_right_eq_some, Option.some.injEq] at h
    obtain ⟨-, rfl⟩ := h
    -- the disconnect comes first when the launch config differs
    unfold addServer
    split
    · next hne => exact .addServerChanged serverEntity hne
    · next heq => exact .addServerSame serverEntity (Decidable.not_not.mp heq)
  | reconnectServer serverEntity =>
    simp only [act, Option.ite_none_right_eq_some, Option.some.injEq] at h
    obtain ⟨-, rfl⟩ := h
    exact .reconnectServer serverEntity
  | removeServer =>
    cases h
    exact .removeServer
  | sleepServer =>
    cases h
    exact .sleepServer
  | createTemporaryServer serverEntity sleep =>
    simp only [act, Option.ite_none_right_eq_some, Option.some.injEq] at h
    obtain ⟨-, rfl⟩ := h
    exact .createTemporaryServer serverEntity sleep
  | closeCompletes i =>
    simp only [act, disconnectStep] at h
    split at h
    · next caller hop =>
      cases h
      exact .closeCompletes i caller hop
    · cases h
  | disconnectReturns i =>
    simp only [act, disconnectStep] at h
    split at h
    · next caller hop =>
      cases h
      exact .disconnectReturns i caller hop
    · cases h
  | queueCleared =>
    simp only [act] at h
    split at h
    · next start ok hqueue =>
      cases h
      exact .queueCleared start ok hqueue
    · cases h
  | ensureReturns call =>
    -- returning, polling, and the calls that cannot return yet
    simp only [act, ensureReturns] at h
    split at h
    · cases h
      exact .ensureReturns call
    · simp only [Option.ite_none_right_eq_some, Option.some.injEq] at h
      obtain ⟨-, rfl⟩ := h
      exact .ensureReturns call
    · cases h
  | ensureThrows call =>
    simp only [act, ensureThrows] at h
    split at h
    · cases h
      exact .ensureThrows call
    · cases h
      exact .ensureThrows call
    · cases h
  | transportClosed t message =>
    simp only [act, Option.ite_none_right_eq_some, Option.some.injEq] at h
    obtain ⟨ht, rfl⟩ := h
    exact .transportClosed t message ht
  | _ =>
    -- what is left are the actions of a start
    obtain ⟨serverEntity, stage, hop, hstep⟩ := startStep_of_match h
    exact acts_of_startStep hop hstep rfl

/-- A step is an action that the calls that wait have seen. -/
theorem acts_of_step (h : s.step a = some s') :
    ∃ s₁, Acts s a s₁ ∧ s' = s₁.observe := by
  obtain ⟨s₁, hact, rfl⟩ := Option.map_eq_some_iff.mp h
  exact ⟨s₁, acts_of_act hact, rfl⟩

/-! ## What the operations leave alone -/

@[simp] theorem observe_context (s : Lifecycle) : s.observe.context = s.context := by
  unfold observe
  split <;> rfl

@[simp] theorem observe_operations (s : Lifecycle) : s.observe.operations = s.operations := by
  unfold observe
  split <;> rfl

/-- `createServerConnection` returns at once, or begins a start. -/
theorem createServerConnection_cases (s : Lifecycle) :
    ((s.context.status = .online ∨ s.context.status = .connecting) ∧
        s.createServerConnection = s) ∨
      (s.context.status ≠ .online ∧ s.context.status ≠ .connecting ∧
        s.createServerConnection =
          { s with
            context.status := .connecting
            operations := s.operations.add (.starting s.serverEntity .preparing) }) := by
  unfold createServerConnection
  cases s.context.status with
  | online => exact .inl ⟨.inl rfl, rfl⟩
  | connecting => exact .inl ⟨.inr rfl, rfl⟩
  | _ => exact .inr ⟨by decide, by decide, rfl⟩

/-- `addServer` begins a start, or only takes over the entity. -/
theorem addServerTail_cases (s : Lifecycle) (serverEntity : LaunchSettings) :
    s.addServerTail serverEntity = { s with serverEntity } ∨
      s.addServerTail serverEntity = { s with serverEntity }.createServerConnection := by
  -- the three statuses without a connection begin a start, if the context is still registered
  unfold addServerTail
  simp only
  split
  · exact .inl rfl
  · exact .inl rfl
  iterate 3
    · split
      · exact .inr rfl
      · exact .inl rfl

/-- How a call of `ensureServerAvailable` arrives, once it has its context. -/
inductive Arrives (s : Lifecycle) (hasToken : Bool) : Lifecycle → Prop where
  | online (hstatus : s.context.status = .online) :
      Arrives s hasToken (s.addCall .returning)
  | queued (start : Nat) (hqueue : s.waitQueue = some ⟨start, none⟩) :
      Arrives s hasToken (s.addCall (.queued start))
  | settled (start : Nat) (ok : Bool) (hstatus : s.context.status ≠ .online)
      (hqueue : s.waitQueue = some ⟨start, some ok⟩) :
      Arrives s hasToken (s.addCall (if ok then .returning else .throwing))
  | wakesUp (honline : s.context.status ≠ .online) (hconnecting : s.context.status ≠ .connecting) :
      Arrives s hasToken (s.wakeupServer hasToken)
  | waits (waitsFor : EnsureWait) (hwait : waitsFor = .polling ∨ waitsFor = .throwing) :
      Arrives s hasToken (s.addCall waitsFor)

theorem arrives_ensureServerAvailable (s : Lifecycle) (hasToken : Bool) :
    Arrives s hasToken (s.ensureServerAvailable hasToken) := by
  unfold ensureServerAvailable
  split
  · next hstatus => exact .online hstatus
  · next hstatus =>
    split
    · next start hqueue => exact .queued start hqueue
    · next start ok hqueue => exact .settled start ok hstatus hqueue
    · split
      · next hsleeping => exact .wakesUp hstatus (by simp [hsleeping])
      · next hoffline => exact .wakesUp hstatus (by simp [hoffline])
      · next herror =>
        -- after an error, only a server that starts lazily is tried again
        split
        · exact .wakesUp hstatus (by simp [herror])
        · exact .waits .throwing (.inr rfl)
      · exact .waits .polling (.inl rfl)
      · exact .waits .throwing (.inr rfl)

end Lifecycle

/-! ## Who answers for a connection -/

/-- Whether an operation will set the status to online, or clear the connection. -/
def Operation.settlesConnection : Operation → Bool
  | .starting _ stage => stage.isUnpublished
  | .closing _ => true
  | .closed _ => false

/-- What holds of status, connection and operations: a context that is online has a connection,
    and only disconnects that are younger than its start are open; for a connection of a context
    that is not online some operation has to answer. -/
structure Sound (status : ServerStatus) (connection : Option Connection)
    (operations : Table Operation) : Prop where
  connected : status = .online → connection.isSome = true
  newest : status = .online → ∀ c, connection = some c →
    ∀ i caller, operations.get? i = some (.closing caller) → c.start ≤ i
  settled : status ≠ .online → connection.isSome = true →
    ∃ i op, operations.get? i = some op ∧ op.settlesConnection = true

namespace Sound

variable {status : ServerStatus} {connection : Option Connection} {operations : Table Operation}

theorem cleared (hstatus : status ≠ .online) : Sound status none operations where
  connected h := absurd h hstatus
  newest h := absurd h hstatus
  settled _ h := by cases h

variable {op : Operation}

/-- An operation that begins answers for the connection. -/
theorem begins (hstatus : status ≠ .online)
    (hop : connection.isSome = true → op.settlesConnection = true) :
    Sound status connection (operations.add op) where
  connected h := absurd h hstatus
  newest h := absurd h hstatus
  settled _ hconn := ⟨operations.next, op, by simp [Table.get?_add], hop hconn⟩

/-- The status does not matter when it is not online before or after. -/
theorem of_status (h : Sound status connection operations) (hstatus : status ≠ .online)
    {status' : ServerStatus} (hstatus' : status' ≠ .online) :
    Sound status' connection operations where
  connected h' := absurd h' hstatus'
  newest h' := absurd h' hstatus'
  settled _ hconn := h.settled hstatus hconn

/-- An operation goes on and still answers for the connection if it did. -/
theorem goesOn (h : Sound status connection operations) {i : Nat} {op' : Operation}
    (hop : operations.get? i = some op) (hclosing : op'.isClosing = false)
    (hsettles : op.settlesConnection = true → op'.settlesConnection = true) :
    Sound status connection (operations.put i op') where
  connected := h.connected
  newest hstatus c hc j caller hj := by
    -- the operation that goes on is no disconnect, so the open ones are the old ones
    rw [Table.get?_put hop] at hj
    split at hj
    · cases hj
      cases hclosing
    · exact h.newest hstatus c hc j caller hj
  settled hstatus hconn := by
    obtain ⟨j, opj, hj, hsettlesj⟩ := h.settled hstatus hconn
    -- either it was this operation that answered for the connection, or another that still does
    by_cases hji : j = i
    · subst hji
      obtain rfl := Option.some.inj (hop.symm.trans hj)
      exact ⟨j, op', by simp [Table.get?_put hop], hsettles hsettlesj⟩
    · exact ⟨j, opj, by simp [Table.get?_put hop, hji, hj], hsettlesj⟩

/-- An operation ends that does not answer for the connection any more. -/
theorem ends (h : Sound status connection operations) {i : Nat}
    (hop : operations.get? i = some op) (hsettles : op.settlesConnection = false) :
    Sound status connection (operations.erase i) where
  connected := h.connected
  newest hstatus c hc j caller hj :=
    h.newest hstatus c hc j caller (Table.get?_of_get?_erase hj).2
  settled hstatus hconn := by
    obtain ⟨j, opj, hj, hsettlesj⟩ := h.settled hstatus hconn
    -- the operation that answers is not the one that ends
    have hji : j ≠ i := by
      rintro rfl
      obtain rfl := Option.some.inj (hop.symm.trans hj)
      rw [hsettles] at hsettlesj
      cases hsettlesj
    exact ⟨j, opj, by simp [Table.get?_erase, hji, hj], hsettlesj⟩

/-- A start goes online with a connection when no older disconnect is open. -/
theorem online {c : Connection}
    (hnewest : ∀ i caller, operations.get? i = some (.closing caller) → c.start ≤ i) :
    Sound .online (some c) operations where
  connected _ := rfl
  newest _ c' hc' i caller hi := by
    cases hc'
    exact hnewest i caller hi
  settled h := absurd rfl h

end Sound

theorem Disconnect.status_ne_online (caller : Disconnect) : caller.status ≠ .online := by
  intro h
  cases caller <;> cases h

theorem ConnectionState.beginClose_status (c : ConnectionState) (status : ServerStatus) :
    (c.beginClose status).status = status := by
  unfold beginClose
  split <;> rfl

theorem ConnectionState.beginClose_connection (c : ConnectionState) (status : ServerStatus) :
    (c.beginClose status).connection = c.connection := by
  unfold beginClose
  split <;> rfl

theorem ConnectionState.recordServerStartupError_eq (c : ConnectionState) (message : String) :
    ∃ lastError, c.recordServerStartupError message = { c with lastError } := by
  unfold recordServerStartupError
  split
  · exact ⟨c.lastError, rfl⟩
  · split
    · exact ⟨c.lastError, rfl⟩
    · exact ⟨some message, rfl⟩

namespace Lifecycle

open Run

@[simp] theorem disconnectServerContext_status (s : Lifecycle) (caller : Disconnect) :
    (s.disconnectServerContext caller).context.status = caller.status :=
  ConnectionState.beginClose_status _ _

@[simp] theorem disconnectServerContext_connection (s : Lifecycle) (caller : Disconnect) :
    (s.disconnectServerContext caller).context.connection = s.context.connection :=
  ConnectionState.beginClose_connection _ _

theorem failedStatus_ne_online (s : Lifecycle) (serverEntity : LaunchSettings) :
    s.failedStatus serverEntity ≠ .online := by
  unfold failedStatus
  split <;> decide

/-- A start that fails leaves its status and no connection. -/
theorem startFails_context (s : Lifecycle) (start : Nat) (serverEntity : LaunchSettings)
    (message : String) :
    (s.startFails start serverEntity message).context.status = s.failedStatus serverEntity ∧
      (s.startFails start serverEntity message).context.connection = none := by
  obtain ⟨lastError, heq⟩ := ConnectionState.recordServerStartupError_eq
    (s.context.stopTokenRefresh.clearConnectionState (s.failedStatus serverEntity)) message
  exact ⟨congrArg ConnectionState.status heq, congrArg ConnectionState.connection heq⟩

theorem closedContext_status_ne_online (s : Lifecycle) (t : TransportRef) (message : String) :
    (s.closedContext t message).status ≠ .online := by
  change (if isLazyStartApplicable s.globalEnabled t.serverEntity && t.serverEntity.enabled
    then ServerStatus.sleeping else .error) ≠ .online
  split <;> decide

def IsSound (s : Lifecycle) : Prop :=
  Sound s.context.status s.context.connection s.operations

variable {s : Lifecycle}

theorem IsSound.createServerConnection (h : s.IsSound) : s.createServerConnection.IsSound := by
  rcases createServerConnection_cases s with ⟨-, heq⟩ | ⟨-, -, heq⟩
  · rw [heq]
    exact h
  · rw [heq]
    exact Sound.begins (by simp) (fun _ => rfl)

theorem IsSound.addServerTail (h : s.IsSound) (serverEntity : LaunchSettings) :
    (s.addServerTail serverEntity).IsSound := by
  rcases addServerTail_cases s serverEntity with heq | heq
  · rw [heq]
    exact h
  · rw [heq]
    exact IsSound.createServerConnection (s := { s with serverEntity }) h

theorem isSound_disconnectServerContext (s : Lifecycle) (caller : Disconnect) :
    (s.disconnectServerContext caller).IsSound := by
  unfold IsSound
  rw [disconnectServerContext_status, disconnectServerContext_connection]
  -- the status is published at once, so only the connection that is left has to be answered for
  apply Sound.begins caller.status_ne_online
  intro hsome
  change (if s.context.connection.isSome then Operation.closing caller
    else .closed caller).settlesConnection = true
  rw [if_pos hsome]
  rfl

theorem IsSound.createTemporaryServer (h : s.IsSound) (serverEntity : LaunchSettings)
    (sleep : Bool) : (s.createTemporaryServer serverEntity sleep).IsSound := by
  unfold Lifecycle.createTemporaryServer
  simp only
  split
  · exact h
  · next hstatus =>
    split
    · exact Sound.of_status h hstatus (by simp)
    · exact IsSound.createServerConnection (s := { s with serverEntity }) h

theorem IsSound.restored (h : s.IsSound) (row : Option LaunchSettings) :
    (s.restored row).IsSound := by
  cases row with
  | none => exact h
  | some server =>
    change (s.restoreServerContext server).IsSound
    unfold restoreServerContext
    simp only
    split
    · exact h
    · next hconn =>
      have hnone : s.context.connection = none := by simpa using hconn
      unfold IsSound
      simp only [hnone]
      apply Sound.cleared
      split <;> decide

theorem IsSound.wakeupServer (h : s.IsSound) (hasToken : Bool) :
    (s.wakeupServer hasToken).IsSound := by
  unfold Lifecycle.wakeupServer
  split
  · exact h.createServerConnection
  · exact h

theorem IsSound.arrives {s' : Lifecycle} {hasToken : Bool} (h : s.IsSound)
    (ha : Arrives s hasToken s') : s'.IsSound := by
  cases ha with
  | wakesUp => exact h.wakeupServer hasToken
  -- otherwise the call only waits
  | online | queued | settled | waits => exact h

theorem IsSound.afterDisconnect (h : s.IsSound) (caller : Disconnect) :
    (s.afterDisconnect caller).IsSound := by
  cases caller with
  | sleepServer | removeServer => exact h
  | addServer serverEntity =>
    exact IsSound.addServerTail (s := { s with context := s.context.clearError }) h serverEntity
  | reconnectServer serverEntity =>
    simp only [Lifecycle.afterDisconnect]
    split
    · exact IsSound.createServerConnection
        (s := { s with context := s.context.clearError, serverEntity }) h
    · exact h

/-! ## The condition -/

/-- Whether a disconnect that began before a start is still open. -/
def olderDisconnect (s : Lifecycle) (start : Nat) : Bool :=
  s.operations.any fun i op => op.isClosing && decide (i < start)

theorem le_of_olderDisconnect {start : Nat} (h : s.olderDisconnect start = false) {i : Nat}
    {caller : Disconnect} (hi : s.operations.get? i = some (.closing caller)) : start ≤ i := by
  rcases Nat.lt_or_ge i start with hlt | hge
  · have htrue : s.olderDisconnect start = true :=
      Table.any_eq_true.mpr ⟨i, .closing caller, hi, by simp [Operation.isClosing, hlt]⟩
    rw [h] at htrue
    cases htrue
  · exact hge

/-- A step after which the context is online with the connection of a start leaves no older
    disconnect open, and there is a connection when a modern start goes online. -/
def publishesAlone (s : Lifecycle) : LifecycleAction → Bool
  | .connected start => !s.olderDisconnect start
  | .modernConnected start => s.context.status != .online || !s.olderDisconnect start
  | .modernReady _ => s.context.connection.any fun c => !s.olderDisconnect c.start
  | _ => true

/-- The context goes online with a connection while its start goes on. -/
theorem IsSound.publishes {c : Connection} (hold : s.olderDisconnect c.start = false) {i : Nat}
    {op op' : Operation} (hop : s.operations.get? i = some op) (hclosing : op'.isClosing = false) :
    Sound .online (some c) (s.operations.put i op') := by
  apply Sound.online
  intro j caller hj
  rw [Table.get?_put hop] at hj
  split at hj
  · cases hj
    cases hclosing
  · exact le_of_olderDisconnect hold hj

theorem IsSound.startFails (start : Nat) (serverEntity : LaunchSettings) (message : String) :
    (s.startFails start serverEntity message).IsSound := by
  obtain ⟨hstatus, hconn⟩ := startFails_context s start serverEntity message
  unfold IsSound
  rw [hstatus, hconn]
  exact Sound.cleared (failedStatus_ne_online s serverEntity)

theorem IsSound.onclose (h : s.IsSound) (t : TransportRef) (message : String) :
    (s.onclose t message).IsSound := by
  unfold Lifecycle.onclose
  split
  · exact h
  · split
    · exact h
    · exact Sound.cleared (closedContext_status_ne_online s t message)

/-- What an action keeps. -/
theorem IsSound.acts {s' : Lifecycle} {a : LifecycleAction} (h : s.IsSound)
    (hcond : s.publishesAlone a = true) (ha : Acts s a s') : s'.IsSound := by
  cases ha with
  | ensureServerAvailable row hasToken => 
    exact (h.restored row).arrives (arrives_ensureServerAvailable _ hasToken)
  | addServerChanged _ | reconnectServer _ | removeServer
  | sleepServer => exact isSound_disconnectServerContext s _
  | addServerSame serverEntity => exact h.addServerTail serverEntity
  | createTemporaryServer serverEntity sleep => exact h.createTemporaryServer serverEntity sleep
  | prepared start refreshes probe serverEntity hop =>
    exact Sound.goesOn h hop rfl (fun _ => by cases probe <;> rfl)
  | modernConnected start serverEntity hop =>
    by_cases hstatus : s.context.status = .online
    · -- another start has gone online meanwhile, and its connection is replaced
      have hold : s.olderDisconnect start = false := by
        simpa [publishesAlone, hstatus] using hcond
      change Sound s.context.status (some ⟨start⟩)
        (s.operations.put start (.starting serverEntity .modernStored))
      rw [hstatus]
      exact IsSound.publishes (c := ⟨start⟩) hold hop rfl
    · exact {
        connected := fun h' => absurd h' hstatus
        newest := fun h' => absurd h' hstatus
        settled := fun _ _ => ⟨start, .starting serverEntity .modernStored, by
          change (s.operations.put start _).get? start = _
          simp [Table.get?_put hop], rfl⟩ }
  | modernFailed _ _ _ hop | transportCreated _ _ hop | httpFailed _ _ _ hop
  | fallbackCreated _ _ _ hop =>
    exact Sound.goesOn h hop rfl (fun _ => rfl)
  | modernReady start serverEntity hop =>
    obtain ⟨c, hc, hold⟩ := (Option.any_eq_true _ _).mp hcond
    change Sound .online s.context.connection
      (s.operations.put start (.starting serverEntity .logging))
    rw [hc]
    exact IsSound.publishes (by simpa using hold) hop rfl
  | connected start serverEntity t fallback hop =>
    have hold : s.olderDisconnect start = false := by simpa [publishesAlone] using hcond
    exact IsSound.publishes (c := ⟨start⟩) hold hop rfl
  | ready start serverEntity t hop =>
    exact Sound.goesOn h hop rfl (fun hsettles => by cases hsettles)
  | startReturns start serverEntity hop => exact Sound.ends h hop rfl
  | startFails start message serverEntity => exact IsSound.startFails start serverEntity message
  | closeCompletes i caller => exact Sound.cleared caller.status_ne_online
  | disconnectReturns i caller hop =>
    exact IsSound.afterDisconnect (s := s.removeOperation i) (Sound.ends h hop rfl) caller
  | queueCleared | ensureReturns | ensureThrows => exact h
  | transportClosed t message => exact h.onclose t message

/-- Over a run whose starts go online alone, the context is sound. -/
theorem isSound_of_run {globalEnabled : Bool} {serverEntity : LaunchSettings}
    {trs : List (Transition Lifecycle LifecycleAction)}
    (hrun : IsRun step (init globalEnabled serverEntity) trs s)
    (hcond : ∀ tr ∈ trs, tr.pre.publishesAlone tr.act = true) : s.IsSound := by
  refine IsRun.history_of (G := fun tr => tr.pre.publishesAlone tr.act = true)
    (P := fun _ s => s.IsSound) (Sound.cleared (by simp [init, ConnectionState.new])) ?_
    hrun hcond
  intro _ s a s' _ h hstep hok
  obtain ⟨s₁, hacts, rfl⟩ := acts_of_step hstep
  have h₁ := h.acts hok hacts
  -- the calls that wait see the state, they do not change it
  unfold IsSound
  rw [observe_context, observe_operations]
  exact h₁

/-! ## Slow closes -/

/-- No operation on the context is in progress. -/
def Idle (s : Lifecycle) : Prop := ∀ i, s.operations.get? i = none

/-- The completion of a disconnect leaves the connection of a later start in place, with the
    status online. -/
def KeepsLaterConnection (tr : Transition Lifecycle LifecycleAction) : Prop :=
  ∀ i c, tr.act = .closeCompletes i → tr.pre.context.status = .online →
    tr.pre.context.connection = some c → i < c.start →
    tr.post.context.status = .online ∧ tr.post.context.connection = some c

/-- Slow closes do no harm in a run: its disconnects keep the connections of later starts, and
    when it ends with the context idle, the context is online exactly if it has a connection. -/
def SlowClosesHarmless (trs : List (Transition Lifecycle LifecycleAction)) (s : Lifecycle) :
    Prop :=
  (∀ tr ∈ trs, KeepsLaterConnection tr) ∧
    (s.Idle → (s.context.status = .online ↔ s.context.connection.isSome = true))

theorem IsSound.idle (h : s.IsSound) (hidle : s.Idle) :
    s.context.status = .online ↔ s.context.connection.isSome = true := by
  constructor
  · exact h.connected
  · intro hconn
    -- some operation would have to answer for the connection, but none is under way
    by_contra hstatus
    obtain ⟨i, op, hop, -⟩ := h.settled hstatus hconn
    rw [hidle i] at hop
    cases hop

/-- In every run in which no start goes online while a disconnect that is older than the start
    is open, and in which a modern start finds a connection when it goes online, slow closes do
    no harm. -/
theorem slow_close_harmless (globalEnabled : Bool) (serverEntity : LaunchSettings)
    (trs : List (Transition Lifecycle LifecycleAction)) (s : Lifecycle)
    (hrun : IsRun step (init globalEnabled serverEntity) trs s)
    (hcond : ∀ tr ∈ trs, tr.pre.publishesAlone tr.act = true) : SlowClosesHarmless trs s := by
  constructor
  · intro tr htr i c hact hstatus hc hlt
    obtain ⟨xs, ys, rfl⟩ := List.append_of_mem htr
    obtain ⟨hpre, hstep, -⟩ := hrun.split
    have hsound : tr.pre.IsSound := isSound_of_run hpre
      (fun tr' htr' => hcond tr' (List.mem_append_left _ htr'))
    rw [hact] at hstep
    obtain ⟨s₁, hacts, -⟩ := acts_of_step hstep
    cases hacts with
    | closeCompletes _ caller hop =>
      -- the disconnect would be older than the start of the connection
      have hle := hsound.newest hstatus c hc i caller hop
      omega
  · exact (isSound_of_run hrun hcond).idle

/-- The settings of a server that is started lazily. -/
def lazySettings : LaunchSettings := ⟨"config", true, true⟩

/-- A wake-up that goes through, the idle sleep of the server, and the next wake-up after the
    close has completed. -/
def sleepAndWake : List LifecycleAction :=
  [.ensureServerAvailable none true, .prepared 0 false false, .transportCreated 0, .connected 0,
    .ready 0, .startReturns 0, .queueCleared, .ensureReturns 0, .sleepServer, .closeCompletes 1,
    .disconnectReturns 1, .ensureServerAvailable none true, .prepared 2 false true,
    .modernConnected 2, .modernReady 2, .startReturns 2]

theorem slow_close_harmless_sleepAndWake :
    ∃ s, exec step (init true lazySettings) sleepAndWake = some s ∧
      SlowClosesHarmless (trace step (init true lazySettings) sleepAndWake) s := by
  refine ⟨(exec step (init true lazySettings) sleepAndWake).get (by decide), by simp, ?_⟩
  apply slow_close_harmless true lazySettings
  · exact isRun_trace _ _ _ (by simp)
  · decide

/-- The wake-up of a server while the close for its sleep is under way. -/
def wakeDuringClose : List LifecycleAction :=
  [.ensureServerAvailable none true, .prepared 0 false false, .transportCreated 0, .connected 0,
    .ready 0, .startReturns 0, .queueCleared, .ensureReturns 0, .sleepServer,
    .ensureServerAvailable none true, .prepared 2 false false, .transportCreated 2, .connected 2,
    .closeCompletes 1]

/-- A close that is slow takes down the connection of the wake-up that came meanwhile. -/
theorem slow_close_clears_connection :
    ¬ ∀ (globalEnabled : Bool) (serverEntity : LaunchSettings)
      (trs : List (Transition Lifecycle LifecycleAction)) (s : Lifecycle),
      IsRun step (init globalEnabled serverEntity) trs s → SlowClosesHarmless trs s := by
  intro h
  have hrun : IsRun step (init true lazySettings)
      (trace step (init true lazySettings) wakeDuringClose)
      ((exec step (init true lazySettings) wakeDuringClose).get (by decide)) :=
    isRun_trace _ _ _ (by simp)
  obtain ⟨hkeeps, -⟩ := h true lazySettings _ _ hrun
  have hlast : ∃ tr ∈ trace step (init true lazySettings) wakeDuringClose,
      tr.act = .closeCompletes 1 ∧ tr.pre.context.status = .online ∧
        tr.pre.context.connection = some ⟨2⟩ ∧ tr.post.context.connection = none := by
    decide
  obtain ⟨tr, htr, hact, hstatus, hconn, hpost⟩ := hlast
  obtain ⟨-, hkept⟩ := hkeeps tr htr 1 ⟨2⟩ hact hstatus hconn (by decide)
  rw [hpost] at hkept
  cases hkept

end Lifecycle

end PetaCore
