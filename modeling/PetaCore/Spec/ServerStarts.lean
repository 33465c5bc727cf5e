import PetaCore.Spec.ServerLifecycle

/-!
# One start at a time

Starts exclude each other by the status alone: a start sets it to connecting or online, and
`createServerConnection` begins another one in no other status. The promise of a wake-up lets the
calls that wait for it go on when the start has put the context online. Both rest on the status
of the context being left alone while a start is under way.

## Key results

- `one_start_and_live_server`: as long as nothing else writes the status during a start, at most
  one start is in progress, and a call that returns has seen the context online with a connection
- `two_starts_in_progress`: a reconnect during a start
-/

namespace PetaCore

/-! ## Starts in progress -/

/-- The start with the number `i` is in progress. -/
def StartInProgress (operations : Table Operation) (i : Nat) : Prop :=
  ∃ serverEntity stage, operations.get? i = some (.starting serverEntity stage)

def NoStart (operations : Table Operation) : Prop := ∀ i, ¬ StartInProgress operations i

namespace StartInProgress

variable {operations : Table Operation}

variable {i : Nat}

theorem add (h : StartInProgress operations i) (op : Operation) :
    StartInProgress (operations.add op) i := by
  obtain ⟨serverEntity, stage, hop⟩ := h
  have hlt := Table.lt_next_of_get? hop
  exact ⟨serverEntity, stage, by simp [Table.get?_add, Nat.ne_of_lt hlt, hop]⟩

/-- A start in progress after another operation has been added, which may be the one. -/
theorem of_add {op : Operation} (h : StartInProgress (operations.add op) i) :
    StartInProgress operations i ∨ (i = operations.next ∧ op.isStarting = true) := by
  obtain ⟨serverEntity, stage, hop⟩ := h
  rw [Table.get?_add] at hop
  split at hop
  · next heq =>
    cases hop
    exact .inr ⟨heq, rfl⟩
  · exact .inl ⟨serverEntity, stage, hop⟩

theorem put {j : Nat} (h : StartInProgress operations i) {op : Operation}
    (hop : operations.get? j = some op) (serverEntity : LaunchSettings) (stage : StartStage) :
    StartInProgress (operations.put j (.starting serverEntity stage)) i := by
  obtain ⟨serverEntity', stage', hopi⟩ := h
  by_cases hij : i = j
  · exact ⟨serverEntity, stage, by simp [Table.get?_put hop, hij]⟩
  · exact ⟨serverEntity', stage', by simp [Table.get?_put hop, hij, hopi]⟩

theorem erase {j : Nat} (h : StartInProgress operations i) (hij : i ≠ j) :
    StartInProgress (operations.erase j) i := by
  obtain ⟨serverEntity, stage, hop⟩ := h
  exact ⟨serverEntity, stage, by simp [Table.get?_erase, hij, hop]⟩

theorem of_erase {j : Nat} (h : StartInProgress (operations.erase j) i) :
    i ≠ j ∧ StartInProgress operations i := by
  obtain ⟨serverEntity, stage, hop⟩ := h
  obtain ⟨hij, hop⟩ := Table.get?_of_get?_erase hop
  exact ⟨hij, serverEntity, stage, hop⟩

end StartInProgress

namespace NoStart

variable {operations : Table Operation}

theorem add (h : NoStart operations) {op : Operation} (hop : op.isStarting = false) :
    NoStart (operations.add op) := by
  intro i hi
  rcases hi.of_add with hi | ⟨-, hstarting⟩
  · exact h i hi
  · rw [hop] at hstarting
    cases hstarting

theorem put (h : NoStart operations) {i : Nat} {op op' : Operation}
    (hop : operations.get? i = some op) (hop' : op'.isStarting = false) :
    NoStart (operations.put i op') := by
  rintro j ⟨serverEntity, stage, hj⟩
  rw [Table.get?_put hop] at hj
  split at hj
  · cases hj
    cases hop'
  · exact h j ⟨serverEntity, stage, hj⟩

end NoStart

/-! ## The status of a start -/

/-- The status that a start has set. -/
def StartStage.status (stage : StartStage) : ServerStatus :=
  if stage.isUnpublished then .connecting else .online

theorem StartStage.status_cases (stage : StartStage) :
    stage.status = .connecting ∨ stage.status = .online := by
  unfold status
  split
  · exact .inl rfl
  · exact .inr rfl

/-- What holds of status, connection and operations when nothing but the starts themselves
    writes the status during a start. -/
structure OneStart (status : ServerStatus) (connection : Option Connection)
    (operations : Table Operation) : Prop where
  unique : ∀ i j, StartInProgress operations i → StartInProgress operations j → i = j
  stageStatus : ∀ i serverEntity stage,
    operations.get? i = some (.starting serverEntity stage) → status = stage.status
  connected : status = .online → connection.isSome = true
  modernStored : ∀ i serverEntity,
    operations.get? i = some (.starting serverEntity .modernStored) → connection.isSome = true

namespace OneStart

variable {status : ServerStatus} {connection : Option Connection} {operations : Table Operation}

theorem noStart (h : OneStart status connection operations) (hoffline : status ≠ .online)
    (hidle : status ≠ .connecting) : NoStart operations := by
  rintro i ⟨serverEntity, stage, hop⟩
  have hstatus := h.stageStatus i serverEntity stage hop
  rcases stage.status_cases with hstage | hstage
  · exact hidle (hstatus.trans hstage)
  · exact hoffline (hstatus.trans hstage)

/-- Without a start, a context that is not online is fine. -/
theorem of_noStart (hno : NoStart operations) (hoffline : status ≠ .online) :
    OneStart status connection operations where
  unique i _ hi := absurd hi (hno i)
  stageStatus i serverEntity stage hop := absurd ⟨serverEntity, stage, hop⟩ (hno i)
  connected h := absurd h hoffline
  modernStored i serverEntity hop := absurd ⟨serverEntity, .modernStored, hop⟩ (hno i)

theorem begins (hno : NoStart operations) (serverEntity : LaunchSettings) :
    OneStart .connecting connection (operations.add (.starting serverEntity .preparing)) := by
  -- no start was in progress, so the only one is the one that begins
  have hnext : ∀ i, StartInProgress (operations.add (.starting serverEntity .preparing)) i →
      i = operations.next := by
    intro i hi
    rcases hi.of_add with hi | ⟨heq, -⟩
    · exact absurd hi (hno i)
    · exact heq
  have hstage : ∀ i serverEntity' stage,
      (operations.add (.starting serverEntity .preparing)).get? i =
        some (.starting serverEntity' stage) → stage = .preparing := by
    intro i serverEntity' stage hop
    have hi := hnext i ⟨serverEntity', stage, hop⟩
    rw [Table.get?_add, if_pos hi] at hop
    cases hop
    rfl
  constructor
  · intro i j hi hj
    rw [hnext i hi, hnext j hj]
  · intro i serverEntity' stage hop
    rw [hstage i serverEntity' stage hop]
    rfl
  · intro h
    cases h
  · intro i serverEntity' hop
    cases hstage i serverEntity' .modernStored hop

/-- The start goes on: with it in a new stage, status and connection are as the stage has them. -/
theorem goesOn (h : OneStart status connection operations) {i : Nat} {op : Operation}
    (hop : operations.get? i = some op) (hstarting : op.isStarting = true)
    {serverEntity : LaunchSettings} {stage : StartStage} {status' : ServerStatus}
    {connection' : Option Connection} (hstatus : status' = stage.status)
    (hconn : status' = .online ∨ stage = .modernStored → connection'.isSome = true) :
    OneStart status' connection' (operations.put i (.starting serverEntity stage)) := by
  -- the operation that goes on is the start in progress
  have hi : StartInProgress operations i := by
    cases op with
    | starting serverEntity' stage' => exact ⟨serverEntity', stage', hop⟩
    | closing | closed => cases hstarting
  -- a start in progress now was so before, so it is this one
  have honly : ∀ j serverEntity' stage',
      (operations.put i (.starting serverEntity stage)).get? j =
        some (.starting serverEntity' stage') → j = i ∧ stage' = stage := by
    intro j serverEntity' stage' hj
    rw [Table.get?_put hop] at hj
    split at hj
    · next heq =>
      cases hj
      exact ⟨heq, rfl⟩
    · next hne => exact absurd (h.unique j i ⟨serverEntity', stage', hj⟩ hi) hne
  constructor
  · rintro j k ⟨ej, sj, hj⟩ ⟨ek, sk, hk⟩
    rw [(honly j ej sj hj).1, (honly k ek sk hk).1]
  · intro j serverEntity' stage' hj
    rw [(honly j serverEntity' stage' hj).2]
    exact hstatus
  · intro honline
    exact hconn (.inl honline)
  · intro j serverEntity' hj
    exact hconn (.inr (honly j serverEntity' .modernStored hj).2.symm)

/-- The start goes on within the status it has set. -/
theorem advances (h : OneStart status connection operations) {i : Nat}
    {serverEntity serverEntity' : LaunchSettings} {stage stage' : StartStage}
    (hop : operations.get? i = some (.starting serverEntity stage))
    (hstage : stage'.isUnpublished = stage.isUnpublished) (hmodern : stage' ≠ .modernStored) :
    OneStart status connection (operations.put i (.starting serverEntity' stage')) := by
  apply h.goesOn hop rfl
  · rw [h.stageStatus i serverEntity stage hop, StartStage.status, StartStage.status, hstage]
  · intro hcase
    cases hcase with
    | inl honline => exact h.connected honline
    | inr heq => exact absurd heq hmodern

theorem ends (h : OneStart status connection operations) (i : Nat) :
    OneStart status connection (operations.erase i) where
  unique j k hj hk := h.unique j k hj.of_erase.2 hk.of_erase.2
  stageStatus j serverEntity stage hop :=
    h.stageStatus j serverEntity stage (Table.get?_of_get?_erase hop).2
  connected := h.connected
  modernStored j serverEntity hop :=
    h.modernStored j serverEntity (Table.get?_of_get?_erase hop).2

/-- No start is left when the one in progress ends. -/
theorem noStart_erase (h : OneStart status connection operations) {i : Nat}
    (hi : StartInProgress operations i) : NoStart (operations.erase i) := by
  intro j hj
  obtain ⟨hji, hj⟩ := hj.of_erase
  exact hji (h.unique j i hj hi)

end OneStart

/-! ## The wake-up queue and the calls that wait -/

/-- The promise of the queue is that of a start in progress, or it has settled; when it is
    fulfilled the context is online. -/
structure QueueOk (status : ServerStatus) (operations : Table Operation)
    (waitQueue : Option WaitQueue) : Prop where
  pending : ∀ i, waitQueue = some ⟨i, none⟩ → StartInProgress operations i
  fulfilled : ∀ i, waitQueue = some ⟨i, some true⟩ → status = .online ∧ NoStart operations

theorem queueOk_none (status : ServerStatus) (operations : Table Operation) :
    QueueOk status operations none where
  pending i h := by cases h
  fulfilled i h := by cases h

/-- The calls that wait for a start wait for one in progress; those that return have seen the
    context online, or `live` says that they see it now. -/
structure CallsOk (live : Prop) (operations : Table Operation) (calls : Table EnsureCall) :
    Prop where
  waiting : ∀ c call i, calls.get? c = some call → call.waitsFor = .queued i →
    StartInProgress operations i
  returning : ∀ c call, calls.get? c = some call → call.waitsFor = .returning →
    call.wasOnline = true ∨ live

namespace CallsOk

variable {live live' : Prop} {operations operations' : Table Operation} {calls : Table EnsureCall}

theorem mono (h : CallsOk live operations calls) (hlive : live → live')
    (hops : ∀ i, StartInProgress operations i → StartInProgress operations' i) :
    CallsOk live' operations' calls where
  waiting c call i hc hi := hops i (h.waiting c call i hc hi)
  returning c call hc hret := (h.returning c call hc hret).imp_right hlive

theorem addCall (h : CallsOk live operations calls) {waitsFor : EnsureWait}
    (hwait : ∀ i, waitsFor = .queued i → StartInProgress operations i)
    (hreturn : waitsFor = .returning → live) :
    CallsOk live operations (calls.add ⟨waitsFor, false⟩) := by
  constructor
  · intro c call i hc hi
    rw [Table.get?_add] at hc
    split at hc
    · cases hc
      exact hwait i hi
    · exact h.waiting c call i hc hi
  · intro c call hc hret
    rw [Table.get?_add] at hc
    split at hc
    · cases hc
      exact .inr (hreturn hret)
    · exact h.returning c call hc hret

theorem erase (h : CallsOk live operations calls) (c : Nat) :
    CallsOk live operations (calls.erase c) where
  waiting c' call i hc := h.waiting c' call i (Table.get?_of_get?_erase hc).2
  returning c' call hc := h.returning c' call (Table.get?_of_get?_erase hc).2

end CallsOk

namespace Lifecycle

open Run

/-- The part of the invariant that an action keeps before the calls have seen its result. -/
structure StartsOk (s : Lifecycle) (live : Prop) : Prop where
  oneStart : OneStart s.context.status s.context.connection s.operations
  queue : QueueOk s.context.status s.operations s.waitQueue
  calls : CallsOk live s.operations s.calls

/-- Every call that waits while the context is online with a connection has seen it. -/
def CallsSeen (s : Lifecycle) : Prop :=
  s.isLive = true → ∀ c call, s.calls.get? c = some call → call.wasOnline = true

/-! ## The condition -/

/-- Whether a start is in progress, or the promise of one is still in the queue. -/
def attempting (s : Lifecycle) : Bool :=
  s.operations.any (fun _ op => op.isStarting) || s.waitQueue.isSome

/-- Whether the step writes the status without being a step of a start: a disconnect begins or
    completes, a context is put to sleep or restored, or the close of a transport is not
    ignored. -/
def writesStatus (s : Lifecycle) : LifecycleAction → Bool
  | .ensureServerAvailable restored _ => restored.isSome && s.context.connection.isNone
  | .addServer serverEntity => s.serverEntity.launchConfig != serverEntity.launchConfig
  | .reconnectServer _ | .removeServer | .sleepServer | .closeCompletes _ => true
  | .createTemporaryServer serverEntity sleep =>
    s.context.status != .online && sleep && isLazyStartApplicable s.globalEnabled serverEntity
  | .transportClosed t _ =>
    !s.plannedTransportCloses.contains t &&
      !(s.context.transport.isSome && s.context.transport != some t)
  | _ => false

/-- The step does not write the status during a start. -/
def leavesStartAlone (s : Lifecycle) (a : LifecycleAction) : Bool :=
  !(s.attempting && s.writesStatus a)

variable {s s' : Lifecycle} {live : Prop}

theorem of_leavesStartAlone {a : LifecycleAction} (h : s.leavesStartAlone a = true)
    (hwrites : s.writesStatus a = true) : NoStart s.operations ∧ s.waitQueue = none := by
  have hfalse : s.attempting = false := by simpa [leavesStartAlone, hwrites] using h
  simp only [attempting, Bool.or_eq_false_iff] at hfalse
  constructor
  · rintro i ⟨serverEntity, stage, hop⟩
    have htrue : s.operations.any (fun _ op => op.isStarting) = true :=
      Table.any_eq_true.mpr ⟨i, .starting serverEntity stage, hop, rfl⟩
    rw [hfalse.1] at htrue
    cases htrue
  · simpa using hfalse.2

/-! ## What each step keeps -/

/-- The status is written while no start is in progress. -/
theorem StartsOk.written (h : s.StartsOk False) (hno : NoStart s.operations)
    (hstatus : s'.context.status ≠ .online) (hno' : NoStart s'.operations)
    (hqueue : s'.waitQueue = none) (hcalls : s'.calls = s.calls) : s'.StartsOk live where
  oneStart := OneStart.of_noStart hno' hstatus
  queue := by
    rw [hqueue]
    exact queueOk_none _ _
  calls := by
    rw [hcalls]
    exact h.calls.mono False.elim (fun i hi => absurd hi (hno i))

variable {serverEntity : LaunchSettings}

variable {i : Nat}

/-- The start in progress goes on. -/
theorem StartsOk.goesOn (h : s.StartsOk False)
    {serverEntity' : LaunchSettings} {stage stage' : StartStage}
    (hop : s.operations.get? i = some (.starting serverEntity stage))
    (hops : s'.operations = s.operations.put i (.starting serverEntity' stage'))
    (hone : OneStart s'.context.status s'.context.connection s'.operations)
    (hqueue : s'.waitQueue = s.waitQueue) (hcalls : s'.calls = s.calls) : s'.StartsOk live where
  oneStart := hone
  queue := by
    rw [hqueue, hops]
    constructor
    · intro j hj
      exact (h.queue.pending j hj).put hop serverEntity' stage'
    · intro j hj
      exact absurd ⟨serverEntity, stage, hop⟩ ((h.queue.fulfilled j hj).2 i)
  calls := by
    rw [hcalls, hops]
    exact h.calls.mono False.elim (fun j hj => hj.put hop serverEntity' stage')

theorem StartsOk.createServerConnection (h : s.StartsOk live) :
    s.createServerConnection.StartsOk live := by
  rcases createServerConnection_cases s with ⟨-, heq⟩ | ⟨hoffline, hidle, heq⟩
  · rw [heq]
    exact h
  · rw [heq]
    exact {
      oneStart := OneStart.begins (h.oneStart.noStart hoffline hidle) s.serverEntity
      queue := {
        pending := fun i hi => (h.queue.pending i hi).add _
        fulfilled := fun i hi => absurd (h.queue.fulfilled i hi).1 hoffline }
      calls := h.calls.mono id (fun i hi => hi.add _) }

theorem StartsOk.addServerTail (h : s.StartsOk live) (serverEntity : LaunchSettings) :
    (s.addServerTail serverEntity).StartsOk live := by
  have h' : { s with serverEntity }.StartsOk live := ⟨h.oneStart, h.queue, h.calls⟩
  rcases addServerTail_cases s serverEntity with heq | heq
  · rw [heq]
    exact h'
  · rw [heq]
    exact h'.createServerConnection

theorem StartsOk.addCall (h : s.StartsOk live) {waitsFor : EnsureWait}
    (hwait : ∀ i, waitsFor = .queued i → StartInProgress s.operations i)
    (hreturn : waitsFor = .returning → live) : (s.addCall waitsFor).StartsOk live :=
  ⟨h.oneStart, h.queue, h.calls.addCall hwait hreturn⟩

/-- A call is added that neither waits for a start nor returns. -/
theorem StartsOk.addOtherCall (h : s.StartsOk live) {waitsFor : EnsureWait}
    (hother : waitsFor = .polling ∨ waitsFor = .throwing) :
    (s.addCall waitsFor).StartsOk live := by
  apply h.addCall
  · rintro i rfl
    rcases hother with heq | heq <;> cases heq
  · rintro rfl
    rcases hother with heq | heq <;> cases heq

theorem StartsOk.wakeupServer (h : s.StartsOk live) (hoffline : s.context.status ≠ .online)
    (hidle : s.context.status ≠ .connecting) (hasToken : Bool) :
    (s.wakeupServer hasToken).StartsOk live := by
  unfold Lifecycle.wakeupServer
  split
  -- the status lets `createServerConnection` begin, so the queue gets a start in progress
  · rcases createServerConnection_cases s with ⟨hbusy, -⟩ | ⟨-, -, heq⟩
    · rcases hbusy with hbusy | hbusy
      · exact absurd hbusy hoffline
      · exact absurd hbusy hidle
    · have hstart : StartInProgress s.createServerConnection.operations s.operations.next := by
        rw [heq]
        exact ⟨s.serverEntity, .preparing, by simp [Table.get?_add]⟩
      have h' := h.createServerConnection
      apply StartsOk.addCall (s := { s.createServerConnection with
        waitQueue := some ⟨s.operations.next, none⟩ })
      · refine ⟨h'.oneStart, ?_, h'.calls⟩
        constructor
        · intro i hi
          cases hi
          exact hstart
        · intro i hi
          cases hi
      · intro i hi
        cases hi
        exact hstart
      · intro hret
        cases hret
  · exact h.addOtherCall (.inr rfl)

/-- A call that arrives, in a context that is as it should be. -/
theorem StartsOk.arrives (h : s.StartsOk False) {hasToken : Bool}
    (ha : Arrives s hasToken s') : s'.StartsOk (s'.isLive = true) := by
  have h' : ∀ live', s.StartsOk live' := fun live' =>
    ⟨h.oneStart, h.queue, h.calls.mono False.elim (fun _ hi => hi)⟩
  cases ha with
  | online honline =>
    apply (h' _).addCall
    · intro i hi
      cases hi
    · intro _
      change (s.context.status == .online && s.context.connection.isSome) = true
      rw [honline, h.oneStart.connected honline]
      rfl
  | queued start hqueue =>
    apply (h' _).addCall
    · intro i hi
      cases hi
      exact h.queue.pending start hqueue
    · intro hret
      cases hret
  | settled start ok hoffline hqueue =>
    -- a promise that is fulfilled and still in the queue has its server online
    cases ok with
    | true => exact absurd (h.queue.fulfilled start hqueue).1 hoffline
    | false => exact (h' _).addOtherCall (.inr rfl)
  | wakesUp hoffline hidle => exact (h' _).wakeupServer hoffline hidle hasToken
  | waits waitsFor hwait => exact (h' _).addOtherCall hwait

/-! ## The end of a start -/

variable {start : Nat}

variable {ok : Bool}

theorem pending_of_settle (h : (s.settle start ok).waitQueue = some ⟨i, none⟩) :
    s.waitQueue = some ⟨i, none⟩ ∧ i ≠ start := by
  obtain ⟨q, hq, heq⟩ := Option.map_eq_some_iff.mp h
  split at heq
  · cases heq
  · next hne =>
    subst heq
    exact ⟨hq, hne⟩

theorem fulfilled_of_settle (h : (s.settle start ok).waitQueue = some ⟨i, some true⟩) :
    s.waitQueue = some ⟨i, some true⟩ ∨ ok = true := by
  obtain ⟨q, hq, heq⟩ := Option.map_eq_some_iff.mp h
  split at heq
  · cases heq
    exact .inr rfl
  · subst heq
    exact .inl hq

/-- A call after a start has settled: it waited for the start and goes on, or it is as it was. -/
theorem call_of_settle {c : Nat} {call : EnsureCall}
    (h : (s.settle start ok).calls.get? c = some call) :
    ∃ call₀, s.calls.get? c = some call₀ ∧ call.wasOnline = call₀.wasOnline ∧
      ((call₀.waitsFor = .queued start ∧
          call.waitsFor = if ok then .returning else .throwing) ∨
        (call₀.waitsFor ≠ .queued start ∧ call.waitsFor = call₀.waitsFor)) := by
  -- the calls are mapped in place: each has the number it had
  rw [show (s.settle start ok).calls.get? c = (s.calls.get? c).map _ from Table.get?_map _ _ _] at h
  obtain ⟨call₀, hcall₀, heq⟩ := Option.map_eq_some_iff.mp h
  refine ⟨call₀, hcall₀, ?_⟩
  split at heq
  · next hwait =>
    subst heq
    exact ⟨rfl, .inl ⟨hwait, rfl⟩⟩
  · next hwait =>
    subst heq
    exact ⟨rfl, .inr ⟨hwait, rfl⟩⟩

/-- The start in progress returns: whoever waited for it has seen the context online. -/
theorem StartsOk.startReturns (h : s.StartsOk False) (hseen : s.CallsSeen)
    (hop : s.operations.get? start = some (.starting serverEntity .logging)) :
    ((s.removeOperation start).settle start true).StartsOk live := by
  have hstart : StartInProgress s.operations start := ⟨serverEntity, .logging, hop⟩
  have honline : s.context.status = .online := h.oneStart.stageStatus start _ _ hop
  have hlive : s.isLive = true := by
    unfold isLive
    rw [honline, h.oneStart.connected honline]
    rfl
  -- queue and calls, first those that still wait and then those that the start lets go
  refine ⟨h.oneStart.ends start, ⟨?_, ?_⟩, ⟨?_, ?_⟩⟩
  · intro i hi
    obtain ⟨hqueue, hne⟩ := pending_of_settle hi
    exact (h.queue.pending i hqueue).erase hne
  · intro i _
    exact ⟨honline, h.oneStart.noStart_erase hstart⟩
  · intro c call i hc hi
    obtain ⟨call₀, hcall₀, -, ⟨-, hwait⟩ | ⟨hne, hwait⟩⟩ := call_of_settle hc
    · rw [hi] at hwait
      cases hwait
    · rw [hi] at hwait
      have hi₀ : i ≠ start := by
        rintro rfl
        exact hne hwait.symm
      exact (h.calls.waiting c call₀ i hcall₀ hwait.symm).erase hi₀
  · intro c call hc _
    obtain ⟨call₀, hcall₀, hwas, -⟩ := call_of_settle hc
    exact .inl (hwas.trans (hseen hlive c call₀ hcall₀))

/-- The start in progress fails: whoever waited for it throws. -/
theorem StartsOk.startFails (h : s.StartsOk False)
    {stage : StartStage} (hop : s.operations.get? start = some (.starting serverEntity stage))
    (message : String) : (s.startFails start serverEntity message).StartsOk live := by
  have hstart : StartInProgress s.operations start := ⟨serverEntity, stage, hop⟩
  have hno : NoStart (s.operations.erase start) := h.oneStart.noStart_erase hstart
  have hstatus : (s.startFails start serverEntity message).context.status ≠ .online := by
    rw [(startFails_context s start serverEntity message).1]
    exact failedStatus_ne_online s serverEntity
  refine ⟨OneStart.of_noStart hno hstatus, ⟨?_, ?_⟩, ⟨?_, ?_⟩⟩
  -- the queue can only have waited for this start, which has settled
  · intro i hi
    obtain ⟨hqueue, hne⟩ := pending_of_settle hi
    exact absurd (h.oneStart.unique i start (h.queue.pending i hqueue) hstart) hne
  · intro i hi
    rcases fulfilled_of_settle hi with hqueue | hok
    · exact absurd hstart ((h.queue.fulfilled i hqueue).2 start)
    · cases hok
  · intro c call i hc hi
    obtain ⟨call₀, hcall₀, -, ⟨-, hwait⟩ | ⟨hne, hwait⟩⟩ := call_of_settle hc
    · rw [hi] at hwait
      cases hwait
    · rw [hi] at hwait
      -- a call that still waits would wait for a second start
      have hi₀ := h.oneStart.unique i start
        (h.calls.waiting c call₀ i hcall₀ hwait.symm) hstart
      exact absurd (hi₀ ▸ hwait.symm) hne
  · intro c call hc hret
    obtain ⟨call₀, hcall₀, hwas, ⟨-, hwait⟩ | ⟨-, hwait⟩⟩ := call_of_settle hc
    · rw [hret] at hwait
      cases hwait
    · rw [hret] at hwait
      rcases h.calls.returning c call₀ hcall₀ hwait.symm with hseen | hfalse
      · exact .inl (hwas.trans hseen)
      · exact hfalse.elim

/-- A disconnect returns, with what its caller does then. -/
theorem StartsOk.disconnectReturns (h : s.StartsOk False) {caller : Disconnect}
    (hop : s.operations.get? i = some (.closed caller)) :
    ((s.removeOperation i).afterDisconnect caller).StartsOk live := by
  -- what ends is a disconnect, so starts stay in progress
  have hkeep : ∀ j, StartInProgress s.operations j → StartInProgress (s.operations.erase i) j := by
    rintro j ⟨serverEntity, stage, hj⟩
    have hji : j ≠ i := by
      rintro rfl
      rw [hop] at hj
      cases hj
    exact StartInProgress.erase ⟨serverEntity, stage, hj⟩ hji
  have h' : (s.removeOperation i).StartsOk live := by
    refine ⟨h.oneStart.ends i, ⟨?_, ?_⟩, h.calls.mono False.elim hkeep⟩
    · intro j hj
      exact hkeep j (h.queue.pending j hj)
    · intro j hj
      obtain ⟨honline, hno⟩ := h.queue.fulfilled j hj
      exact ⟨honline, fun k hk => hno k hk.of_erase.2⟩
  cases caller with
  | sleepServer => exact h'
  | removeServer => exact ⟨h'.oneStart, h'.queue, h'.calls⟩
  | addServer serverEntity =>
    exact StartsOk.addServerTail (s := { s.removeOperation i with
      context := s.context.clearError }) ⟨h'.oneStart, h'.queue, h'.calls⟩ serverEntity
  | reconnectServer serverEntity =>
    simp only [Lifecycle.afterDisconnect]
    split
    · exact StartsOk.createServerConnection (s := { s.removeOperation i with
        context := s.context.clearError, serverEntity }) ⟨h'.oneStart, h'.queue, h'.calls⟩
    · exact ⟨h'.oneStart, h'.queue, h'.calls⟩

/-! ## Steps from outside -/

theorem StartsOk.disconnectServerContext (h : s.StartsOk False) (hno : NoStart s.operations)
    (hqueue : s.waitQueue = none) (caller : Disconnect) :
    (s.disconnectServerContext caller).StartsOk live := by
  apply h.written hno
  · rw [disconnectServerContext_status]
    exact caller.status_ne_online
  · apply hno.add
    split <;> rfl
  · exact hqueue
  · rfl

theorem StartsOk.restored (h : s.StartsOk False) (row : Option LaunchSettings) {hasToken : Bool}
    (hcond : s.leavesStartAlone (.ensureServerAvailable row hasToken) = true) :
    (s.restored row).StartsOk False := by
  cases row with
  | none => exact h
  | some server =>
    change (s.restoreServerContext server).StartsOk False
    unfold restoreServerContext
    simp only
    split
    · exact ⟨h.oneStart, h.queue, h.calls⟩
    · next hconn =>
      have hwrites : s.writesStatus (.ensureServerAvailable (some server) hasToken) = true := by
        simpa [writesStatus] using hconn
      -- the status is written only when no start is in progress
      obtain ⟨hno, hqueue⟩ := of_leavesStartAlone hcond hwrites
      refine h.written hno ?_ hno hqueue rfl
      change (if isLazyStartApplicable s.globalEnabled server then ServerStatus.sleeping
        else .offline) ≠ .online
      split <;> decide

theorem StartsOk.createTemporaryServer (h : s.StartsOk False) (serverEntity : LaunchSettings)
    (sleep : Bool)
    (hcond : s.leavesStartAlone (.createTemporaryServer serverEntity sleep) = true) :
    (s.createTemporaryServer serverEntity sleep).StartsOk live := by
  have h' : { s with serverEntity }.StartsOk live :=
    ⟨h.oneStart, h.queue, h.calls.mono False.elim (fun _ hi => hi)⟩
  unfold Lifecycle.createTemporaryServer
  simp only
  split
  · exact h'
  · next hoffline =>
    split
    · next hsleep =>
      have hwrites : s.writesStatus (.createTemporaryServer serverEntity sleep) = true := by
        simp only [Bool.and_eq_true] at hsleep
        simp [writesStatus, hoffline, hsleep.1, hsleep.2]
      obtain ⟨hno, hqueue⟩ := of_leavesStartAlone hcond hwrites
      exact h.written hno (by simp) hno hqueue rfl
    · exact h'.createServerConnection

theorem StartsOk.onclose (h : s.StartsOk False) (t : TransportRef) (message : String)
    (hcond : s.leavesStartAlone (.transportClosed t message) = true) :
    (s.onclose t message).StartsOk live := by
  have h' : s.StartsOk live := ⟨h.oneStart, h.queue, h.calls.mono False.elim (fun _ hi => hi)⟩
  unfold Lifecycle.onclose
  split
  · exact ⟨h'.oneStart, h'.queue, h'.calls⟩
  · next hplanned =>
    split
    · exact h'
    · next hstale =>
      have hwrites : s.writesStatus (.transportClosed t message) = true := by
        simp only [writesStatus, Bool.and_eq_true, Bool.not_eq_true', List.contains_eq_mem,
          decide_eq_false_iff_not, Bool.and_eq_false_iff]
        -- not ignored: the context has no transport, or this one
        refine ⟨hplanned, ?_⟩
        by_cases hsome : s.context.transport.isSome = true
        · right
          simpa [hsome] using hstale
        · left
          simpa using hsome
      obtain ⟨hno, hqueue⟩ := of_leavesStartAlone hcond hwrites
      exact h.written hno (closedContext_status_ne_online s t message) hno hqueue rfl

/-! ## Runs -/

/-- What an action keeps before the calls have seen its result. -/
theorem StartsOk.acts (h : s.StartsOk False) (hseen : s.CallsSeen) {a : LifecycleAction}
    (hcond : s.leavesStartAlone a = true) (ha : Acts s a s') :
    s'.StartsOk (s'.isLive = true) := by
  have h' : ∀ live', s.StartsOk live' := fun live' =>
    ⟨h.oneStart, h.queue, h.calls.mono False.elim (fun _ hi => hi)⟩
  -- the steps of a start are `goesOn`; what writes the status otherwise does so when no start is
  -- in progress
  cases ha with
  | ensureServerAvailable row hasToken =>
    exact (h.restored row hcond).arrives (arrives_ensureServerAvailable _ hasToken)
  | addServerChanged serverEntity hconfig =>
    obtain ⟨hno, hqueue⟩ := of_leavesStartAlone hcond (by simpa [writesStatus] using hconfig)
    exact h.disconnectServerContext hno hqueue _
  | addServerSame serverEntity => exact (h' _).addServerTail serverEntity
  | reconnectServer _ | removeServer | sleepServer =>
    obtain ⟨hno, hqueue⟩ := of_leavesStartAlone hcond rfl
    exact h.disconnectServerContext hno hqueue _
  | createTemporaryServer serverEntity sleep =>
    exact h.createTemporaryServer serverEntity sleep hcond
  | prepared start refreshes probe serverEntity hop =>
    refine h.goesOn hop rfl (h.oneStart.advances hop ?_ ?_) rfl rfl
    · cases probe <;> rfl
    · cases probe <;> decide
  | modernConnected start serverEntity hop =>
    have hstatus := h.oneStart.stageStatus start serverEntity .probing hop
    exact h.goesOn hop rfl (h.oneStart.goesOn hop rfl hstatus (fun _ => rfl)) rfl rfl
  | modernFailed start serverEntity stage hop hstage =>
    refine h.goesOn hop rfl (h.oneStart.advances hop ?_ (by decide)) rfl rfl
    rcases hstage with rfl | rfl <;> rfl
  | modernReady start serverEntity hop =>
    exact h.goesOn hop rfl (h.oneStart.goesOn hop rfl rfl
      (fun _ => h.oneStart.modernStored start serverEntity hop)) rfl rfl
  | transportCreated _ _ hop | httpFailed _ _ _ hop | fallbackCreated _ _ _ hop =>
    exact h.goesOn hop rfl (h.oneStart.advances hop rfl (by simp)) rfl rfl
  | connected start serverEntity t fallback hop =>
    exact h.goesOn hop rfl (h.oneStart.goesOn hop rfl rfl (fun _ => rfl)) rfl rfl
  | ready start serverEntity t hop =>
    exact h.goesOn hop rfl (h.oneStart.advances hop rfl (by decide)) rfl rfl
  | startReturns start serverEntity hop => exact h.startReturns hseen hop
  | startFails start message serverEntity stage hop => exact h.startFails hop message
  | closeCompletes i caller hop =>
    obtain ⟨hno, hqueue⟩ := of_leavesStartAlone hcond rfl
    exact h.written hno caller.status_ne_online (hno.put hop rfl) hqueue rfl
  | disconnectReturns i caller hop => exact h.disconnectReturns hop
  | queueCleared start ok => exact ⟨h.oneStart, queueOk_none _ _, (h' _).calls⟩
  | ensureReturns call | ensureThrows call => exact ⟨h.oneStart, h.queue, (h' _).calls.erase call⟩
  | transportClosed t message =>
    have hclose : (s.onclose t message).StartsOk ((s.onclose t message).isLive = true) :=
      h.onclose t message hcond
    exact ⟨hclose.oneStart, hclose.queue, hclose.calls⟩

/-- When the calls have seen a context that is live, all of them have. -/
theorem StartsOk.observe (h : s.StartsOk (s.isLive = true)) :
    s.observe.StartsOk False ∧ s.observe.CallsSeen := by
  -- with a live context every call is marked, so nothing is left to see
  unfold Lifecycle.observe
  split
  · next hlive =>
    have hcalls : ∀ c call, (s.calls.map fun c => { c with wasOnline := true }).get? c = some call →
        ∃ call₀, s.calls.get? c = some call₀ ∧ call = { call₀ with wasOnline := true } := by
      intro c call hc
      rw [Table.get?_map] at hc
      obtain ⟨call₀, hcall₀, heq⟩ := Option.map_eq_some_iff.mp hc
      exact ⟨call₀, hcall₀, heq.symm⟩
    refine ⟨⟨h.oneStart, h.queue, ⟨?_, ?_⟩⟩, ?_⟩
    · intro c call i hc hi
      obtain ⟨call₀, hcall₀, rfl⟩ := hcalls c call hc
      exact h.calls.waiting c call₀ i hcall₀ hi
    · intro c call hc _
      obtain ⟨call₀, -, rfl⟩ := hcalls c call hc
      exact .inl rfl
    · intro _ c call hc
      obtain ⟨call₀, -, rfl⟩ := hcalls c call hc
      rfl
  · next hlive =>
    exact ⟨⟨h.oneStart, h.queue, h.calls.mono hlive (fun _ hi => hi)⟩,
      fun h' => absurd h' hlive⟩

theorem startsOk_init (globalEnabled : Bool) (serverEntity : LaunchSettings) :
    (init globalEnabled serverEntity).StartsOk False ∧
      (init globalEnabled serverEntity).CallsSeen := by
  have hno : NoStart (init globalEnabled serverEntity).operations := by
    rintro i ⟨e, stage, hop⟩
    cases (Table.get?_empty i).symm.trans hop
  refine ⟨⟨OneStart.of_noStart hno (by simp [init, ConnectionState.new]), queueOk_none _ _,
    ⟨?_, ?_⟩⟩, ?_⟩
  · intro c call i hc
    cases (Table.get?_empty c).symm.trans hc
  · intro c call hc
    cases (Table.get?_empty c).symm.trans hc
  · intro _ c call hc
    cases (Table.get?_empty c).symm.trans hc

theorem startsOk_of_run {globalEnabled : Bool} {trs : List (Transition Lifecycle LifecycleAction)}
    (hrun : IsRun step (init globalEnabled serverEntity) trs s)
    (hcond : ∀ tr ∈ trs, tr.pre.leavesStartAlone tr.act = true) :
    s.StartsOk False ∧ s.CallsSeen := by
  refine IsRun.history_of (G := fun tr => tr.pre.leavesStartAlone tr.act = true)
    (P := fun _ s => s.StartsOk False ∧ s.CallsSeen) (startsOk_init globalEnabled serverEntity)
    ?_ hrun hcond
  rintro _ s a s' - ⟨hok, hseen⟩ hstep hcond
  obtain ⟨s₁, hacts, rfl⟩ := acts_of_step hstep
  exact (hok.acts hseen hcond hacts).observe

/-- At most one start is in progress. -/
def AtMostOneStart (s : Lifecycle) : Prop :=
  ∀ i j, StartInProgress s.operations i → StartInProgress s.operations j → i = j

/-- A call of `ensureServerAvailable` that returns has been there while the context was online
    with a connection. -/
def ReturnsLiveServer (tr : Transition Lifecycle LifecycleAction) : Prop :=
  ∀ c, tr.act = .ensureReturns c →
    ∃ call, tr.pre.calls.get? c = some call ∧ call.wasOnline = true

/-- A call that returns was let go by a start, or finds the context online. -/
theorem call_of_ensureReturns {c : Nat} (h : s.step (.ensureReturns c) = some s') :
    ∃ call, s.calls.get? c = some call ∧
      (call.waitsFor = .returning ∨ s.context.status = .online) := by
  obtain ⟨s₁, hact, -⟩ := Option.map_eq_some_iff.mp h
  simp only [act, ensureReturns] at hact
  split at hact
  · next was hcall => exact ⟨_, hcall, .inl rfl⟩
  · next was hcall =>
    split at hact
    · next hready => exact ⟨_, hcall, .inr hready.2⟩
    · cases hact
  · cases hact

/-- In every run in which the status is left alone while a start is in progress or its promise
    is in the queue, at most one start is in progress at any time, and the calls that return
    have seen a live server. -/
theorem one_start_and_live_server (globalEnabled : Bool) (serverEntity : LaunchSettings)
    (trs : List (Transition Lifecycle LifecycleAction)) (s : Lifecycle)
    (hrun : IsRun step (init globalEnabled serverEntity) trs s)
    (hcond : ∀ tr ∈ trs, tr.pre.leavesStartAlone tr.act = true) :
    s.AtMostOneStart ∧ ∀ tr ∈ trs, ReturnsLiveServer tr := by
  constructor
  · exact (startsOk_of_run hrun hcond).1.oneStart.unique
  · intro tr htr c hact
    obtain ⟨xs, ys, rfl⟩ := List.append_of_mem htr
    obtain ⟨hpre, hstep, -⟩ := hrun.split
    obtain ⟨hok, hseen⟩ := startsOk_of_run hpre
      (fun tr' htr' => hcond tr' (List.mem_append_left _ htr'))
    rw [hact] at hstep
    obtain ⟨call, hcall, hwhy⟩ := call_of_ensureReturns hstep
    refine ⟨call, hcall, ?_⟩
    -- let go by a promise, the call was marked; polling, it finds the context live now
    rcases hwhy with hret | honline
    · rcases hok.calls.returning c call hcall hret with hwas | hfalse
      · exact hwas
      · exact hfalse.elim
    · refine hseen ?_ c call hcall
      unfold isLive
      rw [honline, hok.oneStart.connected honline]
      rfl

/-- Two calls wake a server up together, a third one comes when it is online. -/
def sharedWakeup : List LifecycleAction :=
  [.ensureServerAvailable none true, .ensureServerAvailable none true, .addServer lazySettings,
    .prepared 0 true false, .transportCreated 0, .httpFailed 0, .fallbackCreated 0, .connected 0,
    .ensureServerAvailable none true, .ensureReturns 2, .ready 0, .startReturns 0,
    .ensureReturns 0, .queueCleared, .ensureReturns 1, .sleepServer, .closeCompletes 1]

theorem one_start_and_live_server_sharedWakeup :
    ∃ s, exec step (init true lazySettings) sharedWakeup = some s ∧ s.AtMostOneStart ∧
      ∀ tr ∈ trace step (init true lazySettings) sharedWakeup, ReturnsLiveServer tr := by
  refine ⟨(exec step (init true lazySettings) sharedWakeup).get (by decide), by simp, ?_⟩
  apply one_start_and_live_server true lazySettings
  · exact isRun_trace _ _ _ (by simp)
  · decide

/-- A reconnect during a start takes the status back, and begins a second start. -/
def reconnectDuringStart : List LifecycleAction :=
  [.addServer lazySettings, .reconnectServer lazySettings, .disconnectReturns 1]

theorem two_starts_in_progress :
    ¬ ∀ (globalEnabled : Bool) (serverEntity : LaunchSettings)
      (trs : List (Transition Lifecycle LifecycleAction)) (s : Lifecycle),
      IsRun step (init globalEnabled serverEntity) trs s →
        s.AtMostOneStart ∧ ∀ tr ∈ trs, ReturnsLiveServer tr := by
  intro h
  have hrun : IsRun step (init true lazySettings)
      (trace step (init true lazySettings) reconnectDuringStart)
      ((exec step (init true lazySettings) reconnectDuringStart).get (by decide)) :=
    isRun_trace _ _ _ (by simp)
  obtain ⟨hone, -⟩ := h true lazySettings _ _ hrun
  have heq := hone 0 2 ⟨lazySettings, .preparing, by decide⟩ ⟨lazySettings, .preparing, by decide⟩
  cases heq

end Lifecycle

end PetaCore
