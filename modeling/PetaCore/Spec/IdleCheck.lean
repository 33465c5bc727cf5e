import PetaCore.Core.IdleCheck
import PetaCore.Spec.ServerLifecycle

/-!
# Sleeping servers are idle

The idle check judges a server by `lastActive`, and it judges all servers at one instant. A
server that it puts to sleep is idle as long as `lastActive` accounts for every call: no request
lasts as long as the timeout, no server is selected in the middle of its wake-up or after calls
that nobody recorded, and no call arrives between the decision and the disconnect.

## Key results

- `busy_servers_stay_awake`: under these conditions on the steps, a server that begins to
  disconnect has no request in flight and was last called at least `idleTimeout` before
- `busy_server_sleeps`: a request that arrives while the check waits for another server
-/

namespace PetaCore

open Run

/-! ## When a server is online -/

namespace Lifecycle

variable {s s' : Lifecycle}

theorem online_of_createServerConnection
    (h : s.createServerConnection.context.status = .online) :
    s.createServerConnection = s := by
  rcases createServerConnection_cases s with ⟨-, heq⟩ | ⟨-, -, heq⟩
  · exact heq
  · rw [heq] at h
    cases h

theorem online_of_addServerTail {serverEntity : LaunchSettings}
    (h : (s.addServerTail serverEntity).context.status = .online) :
    s.addServerTail serverEntity = { s with serverEntity } := by
  rcases addServerTail_cases s serverEntity with heq | heq
  · exact heq
  · rw [heq] at h ⊢
    exact online_of_createServerConnection h

theorem online_of_wakeupServer {hasToken : Bool}
    (h : (s.wakeupServer hasToken).context.status = .online) : s.context.status = .online := by
  unfold wakeupServer at h
  split at h
  · have heq := online_of_createServerConnection (s := s) h
    rw [← heq]
    exact h
  · exact h

/-- A call does not put the server online at once. -/
theorem online_of_arrives {hasToken : Bool} (ha : Arrives s hasToken s')
    (h : s'.context.status = .online) : s.context.status = .online := by
  cases ha with
  | wakesUp => exact online_of_wakeupServer h
  | online | queued | settled | waits => exact h

theorem online_of_afterDisconnect {caller : Disconnect}
    (h : (s.afterDisconnect caller).context.status = .online) :
    s.context.status = .online ∧ (s.afterDisconnect caller).waitQueue = s.waitQueue := by
  cases caller with
  | sleepServer | removeServer => exact ⟨h, rfl⟩
  | addServer serverEntity =>
    have heq := online_of_addServerTail (s := { s with context := s.context.clearError }) h
    simp only [afterDisconnect] at h ⊢
    rw [heq] at h ⊢
    exact ⟨h, rfl⟩
  | reconnectServer serverEntity =>
    simp only [afterDisconnect] at h ⊢
    split at h
    · next hreg =>
      have heq := online_of_createServerConnection
        (s := { s with context := s.context.clearError, serverEntity }) h
      rw [if_pos hreg, heq]
      rw [heq] at h
      exact ⟨h, rfl⟩
    · next hreg =>
      rw [if_neg hreg]
      exact ⟨h, rfl⟩

@[simp] theorem observe_waitQueue (s : Lifecycle) : s.observe.waitQueue = s.waitQueue := by
  unfold observe
  split <;> rfl

theorem settle_waitQueue_none {start : Nat} {ok : Bool}
    (h : (s.settle start ok).waitQueue = none) : s.waitQueue = none :=
  Option.map_eq_none_iff.mp h

/-- How a server comes to be online with no wake-up under way: it was so, or a start has put it
    online, or the wake-up is over, or it was online when a call came. -/
theorem online_of_acts {a : LifecycleAction} (ha : Acts s a s')
    (honline : s'.context.status = .online) (hqueue : s'.waitQueue = none) :
    (s.context.status = .online ∧ s.waitQueue = none) ∨
      (s.waitQueue = none ∧ ∃ start, a = .connected start ∨ a = .modernReady start) ∨
      (s.context.status = .online ∧ a = .queueCleared) ∨
      ∃ row hasToken, a = .ensureServerAvailable row hasToken ∧
        (s.restored row).context.status = .online := by
  cases ha with
  | ensureServerAvailable row hasToken =>
    have hfound := online_of_arrives (arrives_ensureServerAvailable _ hasToken) honline
    exact .inr (.inr (.inr ⟨row, hasToken, rfl, hfound⟩))
  | addServerChanged serverEntity =>
    -- a disconnect takes the status from online at once
    rw [disconnectServerContext_status] at honline
    exact absurd honline (Disconnect.status_ne_online _)
  | addServerSame serverEntity =>
    have heq := online_of_addServerTail honline
    rw [heq] at honline hqueue
    exact .inl ⟨honline, hqueue⟩
  | reconnectServer _ | removeServer | sleepServer =>
    rw [disconnectServerContext_status] at honline
    exact absurd honline (Disconnect.status_ne_online _)
  | createTemporaryServer serverEntity sleep =>
    unfold createTemporaryServer at honline hqueue
    simp only at honline hqueue
    split at honline
    · next hon =>
      rw [if_pos hon] at hqueue
      exact .inl ⟨hon, hqueue⟩
    · next hoff =>
      rw [if_neg hoff] at hqueue
      split at honline
      · cases honline
      · next hsleep =>
        have heq := online_of_createServerConnection honline
        rw [heq] at honline
        exact absurd honline hoff
  | prepared | modernConnected | modernFailed | transportCreated | httpFailed | fallbackCreated
  | ready | ensureReturns | ensureThrows => exact .inl ⟨honline, hqueue⟩
  | modernReady start => exact .inr (.inl ⟨hqueue, start, .inr rfl⟩)
  | connected start => exact .inr (.inl ⟨hqueue, start, .inl rfl⟩)
  | startReturns => exact .inl ⟨honline, settle_waitQueue_none hqueue⟩
  | startFails start message serverEntity =>
    rw [(startFails_context s start serverEntity message).1] at honline
    exact absurd honline (failedStatus_ne_online s serverEntity)
  | closeCompletes i caller => exact absurd honline caller.status_ne_online
  | disconnectReturns i caller =>
    obtain ⟨hon, hsame⟩ := online_of_afterDisconnect honline
    exact .inl ⟨hon, hsame.symm.trans hqueue⟩
  | queueCleared => exact .inr (.inr (.inl ⟨honline, rfl⟩))
  | transportClosed t message =>
    simp only [onclose] at honline hqueue
    split at honline
    · next hplanned =>
      rw [if_pos hplanned] at hqueue
      exact .inl ⟨honline, hqueue⟩
    · next hplanned =>
      rw [if_neg hplanned] at hqueue
      split at honline
      · next hstale =>
        rw [if_pos hstale] at hqueue
        exact .inl ⟨honline, hqueue⟩
      · exact absurd honline (closedContext_status_ne_online s t message)

end Lifecycle

/-! ## Recorded calls -/

namespace WatchedServer

variable {w w' : WatchedServer}

/-- No call came after the last activity. -/
def Recorded (w : WatchedServer) : Prop := ∀ t, w.lastCall = some t → t ≤ w.lastActive

def recorded (w : WatchedServer) : Bool := w.lastCall.all fun t => decide (t ≤ w.lastActive)

theorem recorded_iff : w.recorded = true ↔ w.Recorded := by
  unfold recorded Recorded
  cases w.lastCall with
  | none | some _ => simp

theorem step_lastCall {now : Timestamp} {a : LifecycleAction} (h : w.step now a = some w') :
    w'.lastCall = if isCall a then some now else w.lastCall := by
  obtain ⟨server, -, rfl⟩ := Option.map_eq_some_iff.mp h
  rfl

/-- A step at a time when the last call is past, after which the server is online with no wake-up
    under way: the calls are recorded if they were, or if the step records them. -/
theorem recorded_of_step {now : Timestamp} {a : LifecycleAction} (h : w.step now a = some w')
    (honline : w'.server.context.status = .online) (hqueue : w'.server.waitQueue = none)
    (hpast : ∀ t, w.lastCall = some t → t ≤ now)
    (hold : w.server.context.status = .online → w.server.waitQueue = none → w.Recorded)
    (hstart : ∀ start, a = .connected start ∨ a = .modernReady start →
      w.server.waitQueue.isSome = true ∨ w.Recorded)
    (hcleared : a = .queueCleared → w.recordsActivity a = true ∨
      w.server.context.status ≠ .online ∨ w.Recorded) : w'.Recorded := by
  obtain ⟨server, hstep, rfl⟩ := Option.map_eq_some_iff.mp h
  obtain ⟨s₁, hacts, rfl⟩ := Lifecycle.acts_of_step hstep
  simp only [Lifecycle.observe_context, Lifecycle.observe_waitQueue] at honline hqueue
  -- a step that records activity leaves `lastActive` at the present
  by_cases hrecords : w.recordsActivity a = true
  · intro t ht
    simp only [hrecords, if_true]
    simp only at ht
    split at ht
    · cases ht
      exact Int.le_refl _
    · exact hpast t ht
  · have hkeep : isCall a = false → w.Recorded →
        Recorded { w with
          server := s₁.observe
          lastActive := if w.recordsActivity a then now else w.lastActive
          lastCall := if isCall a then some now else w.lastCall } := by
      intro hcall hrec t ht
      simp only [hcall, Bool.false_eq_true, if_false] at ht
      rw [if_neg hrecords]
      exact hrec t ht
    rcases Lifecycle.online_of_acts hacts honline hqueue with
      ⟨hon, hnone⟩ | ⟨hnone, start, hact⟩ | ⟨hon, rfl⟩ | ⟨row, hasToken, rfl, hon⟩
    · have hcall : isCall a = false := by
        cases a with
        | ensureServerAvailable row hasToken =>
          -- the server was online, so the call would have been recorded
          exfalso
          cases hacts
          have hfound := Lifecycle.online_of_arrives
            (Lifecycle.arrives_ensureServerAvailable _ hasToken) honline
          exact hrecords (by simpa [recordsActivity] using hfound)
        | _ => rfl
      exact hkeep hcall (hold hon hnone)
    · apply hkeep
      · rcases hact with rfl | rfl <;> rfl
      · rcases hstart start hact with hsome | hrec
        · simp [hnone] at hsome
        · exact hrec
    · apply hkeep rfl
      rcases hcleared rfl with hrec | hoff | hrec
      · exact absurd hrec hrecords
      · exact absurd hon hoff
      · exact hrec
    · exact absurd (by simpa [recordsActivity] using hon) hrecords

end WatchedServer

namespace IdleState

open WatchedServer

/-! ## The condition -/

/-- The condition on a step: a check selects no server in its wake-up, and none with a request
    that was made as long ago as the timeout; a call does not come for a server that a check is
    going to put to sleep; and a server that comes to be online otherwise than by the wake-up of
    a call has had all its calls recorded. -/
def sleepsIdleOnly (s : IdleState) : IdleAction → Bool
  | .checkIdleServers => (s.serversToSleep s.clock).all fun context =>
    (s.contexts.get? context).any (fun w => w.server.waitQueue.isNone) &&
      !s.requests.any fun _ r =>
        r.context == context && decide (r.calledAt + idleTimeout ≤ s.clock)
  | .server context (.ensureServerAvailable _ _) =>
    !s.checks.any fun _ check => check.serversToSleep.contains context
  | .server context (.connected _) | .server context (.modernReady _) =>
    (s.contexts.get? context).any fun w => w.server.waitQueue.isSome || w.recorded
  | .server context .queueCleared =>
    (s.contexts.get? context).any fun w =>
      w.recordsActivity .queueCleared || w.server.context.status != .online || w.recorded
  | _ => true

/-- No request on the context is in flight, and the last call for it was at least `idleTimeout`
    ago. -/
def IdleFor (s : IdleState) (context : Nat) : Prop :=
  (∀ i r, s.requests.get? i = some r → r.context ≠ context) ∧
    ∀ w t, s.contexts.get? context = some w → w.lastCall = some t → t + idleTimeout ≤ s.clock

/-- What holds in every state of a run that meets the condition. -/
structure IdleOk (s : IdleState) : Prop where
  recorded : ∀ c w, s.contexts.get? c = some w → w.server.context.status = .online →
    w.server.waitQueue = none → w.Recorded
  past : ∀ c w t, s.contexts.get? c = some w → w.lastCall = some t → t ≤ s.clock
  requests : ∀ i r, s.requests.get? i = some r →
    ∃ w t, s.contexts.get? r.context = some w ∧ w.lastCall = some t ∧ r.calledAt ≤ t
  selected : ∀ k check, s.checks.get? k = some check →
    ∀ c ∈ check.serversToSleep, s.IdleFor c

variable {s s' : IdleState}

variable {c : Nat}

theorem mem_serversToSleep {now : Timestamp} (h : c ∈ s.serversToSleep now) :
    ∃ w, s.contexts.get? c = some w ∧ w.shouldSleep now = true := by
  simp only [serversToSleep, List.mem_append, List.mem_filter, List.mem_range,
    Option.any_eq_true, Bool.and_eq_true] at h
  rcases h with ⟨-, w, hw, -, hsleep⟩ | ⟨-, w, hw, -, hsleep⟩
  all_goals exact ⟨w, hw, hsleep⟩

variable {w : WatchedServer}

theorem WatchedServer.of_shouldSleep {now : Timestamp} (h : w.shouldSleep now = true) :
    w.server.context.status = .online ∧ w.lastActive + idleTimeout ≤ now := by
  unfold shouldSleep at h
  split at h
  · cases h
  · next hon =>
    split at h
    · cases h
    · split at h
      · cases h
      · have hidle : now - w.lastActive ≥ idleTimeout := by simpa using h
        exact ⟨Decidable.not_not.mp hon, Int.add_le_of_le_sub_left hidle⟩

/-- The servers that a check selects are idle. -/
theorem IdleOk.idleFor (h : s.IdleOk) (hcond : s.sleepsIdleOnly .checkIdleServers = true)
    (hc : c ∈ s.serversToSleep s.clock) : s.IdleFor c := by
  obtain ⟨w, hw, hsleep⟩ := mem_serversToSleep hc
  obtain ⟨honline, hidle⟩ := WatchedServer.of_shouldSleep hsleep
  simp only [sleepsIdleOnly, List.all_eq_true] at hcond
  have hok := hcond c hc
  simp only [hw, Option.any_some, Bool.and_eq_true, Option.isNone_iff_eq_none,
    Bool.not_eq_true'] at hok
  -- online and without a wake-up, so every call is at most as late as `lastActive`
  have hrec : w.Recorded := h.recorded c w hw honline hok.1
  constructor
  · rintro i r hr rfl
    -- the call of the request is recorded, so the request is as old as the timeout
    obtain ⟨w', t, hw', ht, hle⟩ := h.requests i r hr
    obtain rfl := Option.some.inj (hw.symm.trans hw')
    have hold : r.calledAt + idleTimeout ≤ s.clock :=
      Int.le_trans (Int.add_le_add_right (Int.le_trans hle (hrec t ht)) _) hidle
    have htrue : (s.requests.any fun _ r' =>
        r'.context == r.context && decide (r'.calledAt + idleTimeout ≤ s.clock)) = true :=
      Table.any_eq_true.mpr ⟨i, r, hr, by simp [hold]⟩
    rw [hok.2] at htrue
    cases htrue
  · intro w' t hw' ht
    obtain rfl := Option.some.inj (hw.symm.trans hw')
    exact Int.le_trans (Int.add_le_add_right (hrec t ht) _) hidle

/-- A server that nobody calls stays idle: calls and clock may only have gone on. -/
theorem IdleFor.mono (h : s.IdleFor c)
    (hrequests : ∀ i r, s'.requests.get? i = some r → r.context = c → s.requests.get? i = some r)
    (hcontexts : ∀ w', s'.contexts.get? c = some w' → w'.lastCall = none ∨
      ∃ w, s.contexts.get? c = some w ∧ w'.lastCall = w.lastCall)
    (hclock : s.clock ≤ s'.clock) : s'.IdleFor c := by
  constructor
  · intro i r hr heq
    exact h.1 i r (hrequests i r hr heq) heq
  · intro w' t hw' ht
    rcases hcontexts w' hw' with hnone | ⟨w, hw, hsame⟩
    · rw [hnone] at ht
      cases ht
    · exact Int.le_trans (h.2 w t hw (hsame ▸ ht)) hclock

/-! ## Steps -/

theorem of_sleepNext {l : List Nat} {check : IdleCheck} (h : s.sleepNext l = some (s', check)) :
    ∃ c rest w, l = c :: rest ∧ s.contexts.get? c = some w ∧ s' = s.sleepServer c w ∧
      check.context = c ∧ check.serversToSleep = rest := by
  cases l with
  | nil => cases h
  | cons c rest =>
    simp only [sleepNext] at h
    split at h
    · cases h
    · next w hw =>
      cases h
      exact ⟨c, rest, w, rfl, hw, rfl, rfl, rfl⟩

/-- The calls of a context are those it had. -/
theorem lastCall_of_sleepServer (hw : s.contexts.get? c = some w)
    {c' : Nat} {w' : WatchedServer} (hw' : (s.sleepServer c w).contexts.get? c' = some w') :
    ∃ w₀, s.contexts.get? c' = some w₀ ∧ w'.lastCall = w₀.lastCall := by
  rw [show (s.sleepServer c w).contexts.get? c' = _ from Table.get?_put hw _ c'] at hw'
  split at hw'
  · next heq =>
    cases hw'
    exact ⟨w, heq ▸ hw, rfl⟩
  · exact ⟨w', hw', rfl⟩

theorem IdleFor.sleepServer (hw : s.contexts.get? c = some w)
    {c' : Nat} (h : s.IdleFor c') : (s.sleepServer c w).IdleFor c' :=
  h.mono (fun _ _ hr _ => hr) (fun _ hw' => .inr (lastCall_of_sleepServer hw hw'))
    (Int.le_refl _)

theorem IdleOk.sleepServer (h : s.IdleOk)
    (hw : s.contexts.get? c = some w) : (s.sleepServer c w).IdleOk := by
  constructor
  · intro c' w' hw' honline hqueue
    rw [show (s.sleepServer c w).contexts.get? c' = _ from Table.get?_put hw _ c'] at hw'
    split at hw'
    · cases hw'
      cases honline.symm.trans (Lifecycle.disconnectServerContext_status w.server .sleepServer)
    · exact h.recorded c' w' hw' honline hqueue
  · intro c' w' t hw' ht
    obtain ⟨w₀, hw₀, hsame⟩ := lastCall_of_sleepServer hw hw'
    exact h.past c' w₀ t hw₀ (hsame ▸ ht)
  · intro i r hr
    obtain ⟨w₀, t, hw₀, ht, hle⟩ := h.requests i r hr
    by_cases heq : r.context = c
    · rw [heq, hw] at hw₀
      cases hw₀
      refine ⟨{ w with server := w.server.disconnectServerContext .sleepServer }, t, ?_, ht, hle⟩
      exact (Table.get?_put hw _ _).trans (if_pos heq)
    · exact ⟨w₀, t, (Table.get?_put hw _ _).trans ((if_neg heq).trans hw₀), ht, hle⟩
  · intro k check hk c' hc'
    exact (h.selected k check hk c' hc').sleepServer hw

/-- A new check, or one that goes on, waits to put to sleep what it has selected. -/
theorem IdleOk.withChecks (h : s.IdleOk) {checks : Table IdleCheck}
    (hselected : ∀ k check, checks.get? k = some check →
      s.checks.get? k = some check ∨ ∀ c ∈ check.serversToSleep, s.IdleFor c) :
    IdleOk { s with checks } where
  recorded := h.recorded
  past := h.past
  requests := h.requests
  selected k check hk c hc := by
    rcases hselected k check hk with hold | hnew
    · exact h.selected k check hold c hc
    · exact hnew c hc

/-- The loop of a check goes on to the next server. -/
theorem IdleOk.sleepNext (h : s.IdleOk) {l : List Nat} (hidle : ∀ c ∈ l, s.IdleFor c)
    {check : IdleCheck} (hnext : s.sleepNext l = some (s', check)) :
    s'.IdleOk ∧ s'.checks = s.checks ∧ ∀ c ∈ check.serversToSleep, s'.IdleFor c := by
  obtain ⟨c, rest, w, rfl, hw, rfl, -, hrest⟩ := of_sleepNext hnext
  -- the servers that are left stay idle: the disconnect is not a call
  refine ⟨h.sleepServer hw, rfl, ?_⟩
  intro c' hc'
  rw [hrest] at hc'
  exact (hidle c' (List.mem_cons_of_mem _ hc')).sleepServer hw

theorem IdleOk.checkIdleServers (h : s.IdleOk)
    (hcond : s.sleepsIdleOnly .checkIdleServers = true)
    (hstep : s.step .checkIdleServers = some s') : s'.IdleOk := by
  simp only [step] at hstep
  split at hstep
  · cases hstep
    exact h
  · next s₁ check hnext =>
    cases hstep
    obtain ⟨hok, -, hidle⟩ := h.sleepNext (fun c hc => h.idleFor hcond hc) hnext
    apply hok.withChecks
    intro k check' hk
    rw [Table.get?_add] at hk
    split at hk
    · cases hk
      exact .inr hidle
    · exact .inl hk

theorem IdleOk.sleepReturns (h : s.IdleOk) {k : Nat}
    (hstep : s.step (.sleepReturns k) = some s') : s'.IdleOk := by
  simp only [step] at hstep
  split at hstep
  · cases hstep
  · next check hk =>
    split at hstep
    -- the loop is at its end, or goes on with the next server
    · split at hstep
      · cases hstep
        apply h.withChecks
        intro k' check' hk'
        exact .inl (Table.get?_of_get?_erase hk').2
      · next s₁ next hnext =>
        cases hstep
        obtain ⟨hok, hsame, hidle⟩ := h.sleepNext (h.selected k check hk) hnext
        apply hok.withChecks
        intro k' check' hk'
        rw [hsame, Table.get?_put hk] at hk'
        split at hk'
        · cases hk'
          exact .inr hidle
        · exact .inl (hsame ▸ hk')
    · cases hstep

variable {a : LifecycleAction} {context : Nat}

/-- A request after a step of a server was there before, or is the call that has just come. -/
theorem of_requestsAfter {i : Nat}
    {r : ServerRequest} (h : (s.requestsAfter context w a).get? i = some r) :
    s.requests.get? i = some r ∨
      (isCall a = true ∧ r.context = context ∧ r.calledAt = s.clock) := by
  cases a with
  | ensureServerAvailable row hasToken =>
    simp only [requestsAfter] at h
    rw [Table.get?_add] at h
    split at h
    · cases h
      exact .inr ⟨rfl, rfl, rfl⟩
    · exact .inl h
  | ensureThrows call => exact .inl (Table.get?_of_get?_eraseIf h)
  | _ => exact .inl h

theorem server_of_step (h : s.step (.server context a) = some s') :
    ∃ w w', s.contexts.get? context = some w ∧ w.step s.clock a = some w' ∧
      s' = { s with
        contexts := s.contexts.put context w'
        requests := s.requestsAfter context w a } := by
  simp only [step] at h
  split at h
  · cases h
  · next w hw =>
    split at h
    · cases h
    · obtain ⟨w', hw', rfl⟩ := Option.map_eq_some_iff.mp h
      exact ⟨w, w', hw, hw', rfl⟩

/-- What the condition says when a start goes online, or a wake-up is over. -/
theorem sleepsIdleOnly_server (hcond : s.sleepsIdleOnly (.server context a) = true)
    (hw : s.contexts.get? context = some w) :
    (∀ start, a = .connected start ∨ a = .modernReady start →
        w.server.waitQueue.isSome = true ∨ w.Recorded) ∧
      (a = .queueCleared → w.recordsActivity a = true ∨
        w.server.context.status ≠ .online ∨ w.Recorded) := by
  constructor
  · intro start ha
    rw [← recorded_iff]
    rcases ha with rfl | rfl
    all_goals simpa [sleepsIdleOnly, hw] using hcond
  · rintro rfl
    rw [← recorded_iff]
    simpa [sleepsIdleOnly, hw, or_assoc] using hcond

theorem IdleOk.server (h : s.IdleOk) (hcond : s.sleepsIdleOnly (.server context a) = true)
    (hstep : s.step (.server context a) = some s') : s'.IdleOk := by
  obtain ⟨w, w', hw, hw', rfl⟩ := server_of_step hstep
  have hlast := step_lastCall hw'
  have hget : ∀ c, (s.contexts.put context w').get? c =
      if c = context then some w' else s.contexts.get? c := Table.get?_put hw w'
  -- a call of this step is made now
  have hpast : ∀ t, w'.lastCall = some t → t ≤ s.clock := by
    intro t ht
    rw [hlast] at ht
    split at ht
    · cases ht
      exact Int.le_refl _
    · exact h.past context w t hw ht
  constructor
  · intro c wc hc honline hqueue
    simp only [hget] at hc
    split at hc
    · cases hc
      obtain ⟨hstart, hcleared⟩ := sleepsIdleOnly_server hcond hw
      exact recorded_of_step hw' honline hqueue (fun t => h.past context w t hw)
        (h.recorded context w hw) hstart hcleared
    · exact h.recorded c wc hc honline hqueue
  · intro c wc t hc ht
    simp only [hget] at hc
    split at hc
    · cases hc
      exact hpast t ht
    · exact h.past c wc t hc ht
  · intro i r hr
    simp only [hget]
    rcases of_requestsAfter hr with hold | ⟨hcall, hcontext, hnow⟩
    · obtain ⟨w₀, t, hw₀, ht, hle⟩ := h.requests i r hold
      by_cases heq : r.context = context
      · rw [heq, hw] at hw₀
        cases hw₀
        by_cases hcall : isCall a = true
        · -- the call of the step is later than that of the request
          refine ⟨w', s.clock, by simp [heq], by simp [hlast, hcall], ?_⟩
          exact Int.le_trans hle (h.past context w t hw ht)
        · exact ⟨w', t, by simp [heq], by simp [hlast, hcall, ht], hle⟩
      · exact ⟨w₀, t, by simp [heq, hw₀], ht, hle⟩
    · refine ⟨w', s.clock, by simp [hcontext], by simp [hlast, hcall], ?_⟩
      exact Int.le_of_eq hnow
  · intro k check hk c hc
    have hidle := h.selected k check hk c hc
    -- a call is not for a server that the check has selected
    have hcalled : isCall a = true → c ≠ context := by
      rintro hcall rfl
      cases a with
      | ensureServerAvailable row hasToken =>
        have htrue : (s.checks.any fun _ check => check.serversToSleep.contains c) = true :=
          Table.any_eq_true.mpr ⟨k, check, hk, by simpa using hc⟩
        have hfalse : (s.checks.any fun _ check => check.serversToSleep.contains c) = false := by
          simpa only [sleepsIdleOnly, Bool.not_eq_true'] using hcond
        rw [hfalse] at htrue
        cases htrue
      | _ => cases hcall
    apply hidle.mono
    · intro i r hr hrc
      rcases of_requestsAfter hr with hold | ⟨hcall, hcontext, -⟩
      · exact hold
      · exact absurd (hrc.symm.trans hcontext) (hcalled hcall)
    · intro wc hwc
      simp only [hget] at hwc
      split at hwc
      · next heq =>
        cases hwc
        have hno : ¬ isCall a = true := fun hcall => hcalled hcall heq
        exact .inr ⟨w, heq ▸ hw, by rw [hlast, if_neg hno]⟩
      · exact .inr ⟨wc, hwc, rfl⟩
    · exact Int.le_refl _

theorem IdleOk.newContext (h : s.IdleOk) (globalEnabled : Bool) (serverEntity : LaunchSettings)
    (transportType : Option String) (temporary : Bool) :
    IdleOk { s with
      contexts := s.contexts.add
        ⟨.init globalEnabled serverEntity, transportType, temporary, s.clock, none⟩ } := by
  constructor
  · intro c w hw honline hqueue
    simp only [Table.get?_add] at hw
    split at hw
    · cases hw
      cases honline
    · exact h.recorded c w hw honline hqueue
  · intro c w t hw ht
    simp only [Table.get?_add] at hw
    split at hw
    · cases hw
      cases ht
    · exact h.past c w t hw ht
  · intro i r hr
    obtain ⟨w, t, hw, ht, hle⟩ := h.requests i r hr
    have hne : r.context ≠ s.contexts.next := Nat.ne_of_lt (Table.lt_next_of_get? hw)
    exact ⟨w, t, by simp [Table.get?_add, hne, hw], ht, hle⟩
  · intro k check hk c hc
    refine (h.selected k check hk c hc).mono (fun _ _ hr _ => hr) ?_ (Int.le_refl _)
    intro w hw
    simp only [Table.get?_add] at hw
    split at hw
    · cases hw
      exact .inl rfl
    · exact .inr ⟨w, hw, rfl⟩

theorem IdleOk.step (h : s.IdleOk) {a : IdleAction} (hcond : s.sleepsIdleOnly a = true)
    (hstep : s.step a = some s') : s'.IdleOk := by
  cases a with
  | advance now =>
    simp only [IdleState.step, Option.ite_none_right_eq_some, Option.some.injEq] at hstep
    obtain ⟨hle, rfl⟩ := hstep
    refine ⟨h.recorded, ?_, h.requests, ?_⟩
    · intro c w t hw ht
      exact Int.le_trans (h.past c w t hw ht) hle
    · intro k check hk c hc
      exact (h.selected k check hk c hc).mono (fun _ _ hr _ => hr)
        (fun w hw => .inr ⟨w, hw, rfl⟩) hle
  | newContext globalEnabled serverEntity transportType temporary =>
    cases hstep
    exact h.newContext globalEnabled serverEntity transportType temporary
  | server context a => exact h.server hcond hstep
  | responds i =>
    simp only [IdleState.step] at hstep
    split at hstep
    · cases hstep
    · next r hr =>
      simp only [Option.ite_none_right_eq_some, Option.some.injEq] at hstep
      obtain ⟨-, rfl⟩ := hstep
      refine ⟨h.recorded, h.past, ?_, ?_⟩
      · intro j r' hr'
        exact h.requests j r' (Table.get?_of_get?_erase hr').2
      · intro k check hk c hc
        exact (h.selected k check hk c hc).mono
          (fun _ _ hr' _ => (Table.get?_of_get?_erase hr').2)
          (fun w hw => .inr ⟨w, hw, rfl⟩) (Int.le_refl _)
  | checkIdleServers => exact h.checkIdleServers hcond hstep
  | sleepReturns k => exact h.sleepReturns hstep

/-! ## Runs -/

theorem idleOk_of_run {clock : Timestamp} {trs : List (Transition IdleState IdleAction)}
    (hrun : IsRun step (init clock) trs s)
    (hcond : ∀ tr ∈ trs, tr.pre.sleepsIdleOnly tr.act = true) : s.IdleOk := by
  refine IsRun.history_of (G := fun tr => tr.pre.sleepsIdleOnly tr.act = true)
    (P := fun _ s => s.IdleOk) ?_ (fun _ _ _ _ _ h hstep hok => h.step hok hstep) hrun hcond
  constructor
  · intro c w hw
    cases (Table.get?_empty c).symm.trans hw
  · intro c w t hw
    cases (Table.get?_empty c).symm.trans hw
  · intro i r hr
    cases (Table.get?_empty i).symm.trans hr
  · intro k check hk
    cases (Table.get?_empty k).symm.trans hk

/-- A server that begins to disconnect for its sleep is idle. -/
def SleepsIdle (tr : Transition IdleState IdleAction) : Prop :=
  ∀ c, tr.pre.beginsSleep tr.act = some c → tr.pre.IdleFor c

/-- The server that a check goes on with is the first of those that are left. -/
theorem mem_of_sleepNext {l : List Nat} (h : (s.sleepNext l).map (·.2.context) = some c) : c ∈ l := by
  obtain ⟨⟨s₁, check⟩, hnext, rfl⟩ := Option.map_eq_some_iff.mp h
  obtain ⟨c, rest, w, rfl, -, -, hcontext, -⟩ := of_sleepNext hnext
  simp [hcontext]

/-- In every run in which the checks find no request as old as the timeout and no wake-up under
    way at the servers that they select, no call comes for a server between its selection and its
    disconnect, and servers that come online otherwise than by a wake-up have their calls
    recorded, no server begins to disconnect that has a request in flight or that was called less
    than `idleTimeout` before. -/
theorem busy_servers_stay_awake (clock : Timestamp)
    (trs : List (Transition IdleState IdleAction)) (s : IdleState)
    (hrun : IsRun step (init clock) trs s)
    (hcond : ∀ tr ∈ trs, tr.pre.sleepsIdleOnly tr.act = true) : ∀ tr ∈ trs, SleepsIdle tr := by
  intro tr htr c hbegins
  obtain ⟨xs, ys, rfl⟩ := List.append_of_mem htr
  have hok : tr.pre.IdleOk := idleOk_of_run hrun.split.1
    (fun tr' htr' => hcond tr' (List.mem_append_left _ htr'))
  have hthis := hcond tr htr
  generalize tr.act = a at hbegins hthis
  -- a server begins to disconnect in two places: the first of a check, and each one after it
  cases a with
  | checkIdleServers => exact hok.idleFor hthis (mem_of_sleepNext hbegins)
  | sleepReturns k =>
    obtain ⟨check, hk, hnext⟩ := Option.bind_eq_some_iff.mp hbegins
    exact hok.selected k check hk c (mem_of_sleepNext hnext)
  | _ => cases hbegins

/-- A request wakes a server up and is answered. -/
def wakeUp (context request : Nat) : List IdleAction :=
  [.server context (.ensureServerAvailable none true),
    .server context (.prepared 0 false false), .server context (.transportCreated 0),
    .server context (.connected 0), .server context (.ready 0),
    .server context (.startReturns 0), .server context .queueCleared,
    .server context (.ensureReturns 0), .responds request]

/-- Two servers that were used are put to sleep one after the other. -/
def sleepBoth : List IdleAction :=
  [.newContext true Lifecycle.lazySettings (some "stdio") false,
    .newContext true Lifecycle.lazySettings (some "stdio") true] ++ wakeUp 0 0 ++ wakeUp 1 1 ++
  [.advance 300000, .checkIdleServers, .server 0 (.closeCompletes 1),
    .server 0 (.disconnectReturns 1), .sleepReturns 0, .server 1 (.closeCompletes 1),
    .server 1 (.disconnectReturns 1), .sleepReturns 0]

theorem busy_servers_stay_awake_sleepBoth :
    (exec step (init 0) sleepBoth).isSome = true ∧
      ∀ tr ∈ trace step (init 0) sleepBoth, SleepsIdle tr := by
  refine ⟨by decide, ?_⟩
  apply busy_servers_stay_awake 0 _ ((exec step (init 0) sleepBoth).get (by decide))
  · exact isRun_trace _ _ _ (by simp)
  · decide

/-- A call comes for the second server while the check awaits the disconnect of the first. -/
def callDuringCheck : List IdleAction :=
  [.newContext true Lifecycle.lazySettings (some "stdio") false,
    .newContext true Lifecycle.lazySettings (some "stdio") true] ++ wakeUp 0 0 ++ wakeUp 1 1 ++
  [.advance 300000, .checkIdleServers, .server 1 (.ensureServerAvailable none true),
    .server 1 (.ensureReturns 1), .server 0 (.closeCompletes 1),
    .server 0 (.disconnectReturns 1), .sleepReturns 0]

/-- The check puts a server to sleep that has just been called and runs a request. -/
theorem busy_server_sleeps :
    ¬ ∀ (clock : Timestamp) (trs : List (Transition IdleState IdleAction)) (s : IdleState),
      IsRun step (init clock) trs s → ∀ tr ∈ trs, SleepsIdle tr := by
  intro h
  have hrun : IsRun step (init 0) (trace step (init 0) callDuringCheck)
      ((exec step (init 0) callDuringCheck).get (by decide)) :=
    isRun_trace _ _ _ (by simp)
  have hlast : ∃ tr ∈ trace step (init 0) callDuringCheck,
      tr.pre.beginsSleep tr.act = some 1 ∧
        tr.pre.requests.get? 2 = some ⟨1, 1, 300000⟩ := by
    decide
  obtain ⟨tr, htr, hbegins, hrequest⟩ := hlast
  exact (h 0 _ _ hrun tr htr 1 hbegins).1 2 _ hrequest rfl

end IdleState

end PetaCore
