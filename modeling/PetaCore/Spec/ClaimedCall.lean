import PetaCore.Core.ClaimedCall
import PetaCore.Spec.RequestRouting

/-!
# A claimed approval is settled

A claimed row is settled by the `try` of the handler, when the downstream server has answered and
its answer has been logged, or else by the `catch`, which first counts the timeout and logs the
error. Whatever happens, the heartbeat and the mapping are removed.

Key results:
- `attempts_tryCall`, `attempts_catchError`: what each part writes to the claimed row
- `claimed_call_settles`: when a claimed row is settled
- `claimed_row_unsettled`: an error that cannot be logged leaves the row as it is
-/

namespace PetaCore

namespace ClaimedEnv

/-- The error with which a call fails before its outcome is written. -/
def failure (env : ClaimedEnv) : Option ForwardError :=
  match env.callTool, env.logResponse with
  | .error error, _ => some error
  | .ok _, .error error => some error
  | .ok _, .ok () => none

/-- The count of timeouts after such a failure, for the count at the start of the call. -/
def countAtFailure (env : ClaimedEnv) (timeoutCount : Nat) : Nat :=
  match env.callTool with
  | .error _ => env.countThen 0 timeoutCount
  | .ok _ => env.countThen 1 0

/-- The condition: the call does not fail before its outcome is written, or the failure is counted
    and logged without another one. -/
def settles (env : ClaimedEnv) (timeoutCount : Nat) : Bool :=
  match env.failure with
  | none => true
  | some error =>
    (RequestSystem.recordTimeout (env.countAtFailure timeoutCount) error env.ping).2.isOk &&
      env.logError.isOk

end ClaimedEnv

namespace CallWorld

variable {retry : CallWorld → ForwardOutcome × CallWorld}

/-! ## What each part writes -/

@[simp] theorem attempts_meanwhile (w : CallWorld) (env : ClaimedEnv) (await : Nat) :
    (w.meanwhile env await).attempts = w.attempts := rfl

@[simp] theorem attempts_attempt (w : CallWorld) (a : SettleAttempt) :
    (w.attempt a).attempts = w.attempts ++ [a] := rfl

@[simp] theorem attempts_cleanUp (w : CallWorld) (timer : Nat) (proxyRequestId : String) :
    (w.cleanUp timer proxyRequestId).attempts = w.attempts := rfl

/-- A call that does not fail before its outcome is written has tried to write it. -/
theorem attempts_tryCall {env : ClaimedEnv} (h : env.failure = none) (w : CallWorld) (id : String) :
    ∃ a : SettleAttempt, a.id = id ∧ (w.tryCall id env).2.attempts = w.attempts ++ [a] := by
  unfold ClaimedEnv.failure at h
  unfold tryCall
  split at h
  · cases h
  · cases h
  · next result hcall hlog =>
    obtain ⟨serverResult, isError⟩ := result
    refine ⟨if isError then .markFailed id toolReturnedError else .markExecuted id serverResult,
      ?_, ?_⟩
    · cases isError with
      | false => rfl
      | true => rfl
    · simp only [hcall, hlog]
      -- the row has been found or not, and the user told of it or not
      split
      · split
        · simp
        · simp
      · simp
      · simp

/-- A call that fails before its outcome is written has written nothing. -/
theorem tryCall_failure {env : ClaimedEnv} {error : ForwardError} (h : env.failure = some error)
    (w : CallWorld) (id : String) :
    (w.tryCall id env).1 = .error error ∧ (w.tryCall id env).2.attempts = w.attempts ∧
      (w.tryCall id env).2.timeoutCount = env.countAtFailure w.timeoutCount := by
  unfold ClaimedEnv.failure at h
  unfold tryCall ClaimedEnv.countAtFailure
  split at h
  · next hcall =>
    cases h
    simp [hcall, meanwhile]
  · next hcall hlog =>
    cases h
    simp [hcall, hlog, meanwhile]
  · cases h

/-- What the `catch` writes, when what a retry writes comes after it. -/
theorem attempts_catchError (hretry : ∀ w, w.attempts <+: (retry w).2.attempts) (w : CallWorld)
    (error : ForwardError) (env : ClaimedEnv) (retryCount : Nat) (id : String) :
    if (RequestSystem.recordTimeout w.timeoutCount error env.ping).2.isOk && env.logError.isOk then
      w.attempts ++ [.markFailed id error.text] <+:
        (w.catchError retryCount id env retry error).2.attempts
    else (w.catchError retryCount id env retry error).2.attempts = w.attempts := by
  unfold catchError
  cases hrecorded : (RequestSystem.recordTimeout w.timeoutCount error env.ping).2 with
  | error thrown => simp [hrecorded, Except.isOk, Except.toBool]
  | ok isReconnected =>
    cases hlog : env.logError with
    | error thrown => simp [hrecorded, Except.isOk, Except.toBool]
    | ok _ =>
      simp only [hrecorded, Except.isOk, Except.toBool, Bool.and_self, if_true]
      have hfinish : ∀ v : CallWorld, v.attempts = w.attempts ++ [.markFailed id error.text] →
          w.attempts ++ [.markFailed id error.text] <+:
            (if isReconnected = some false ∧ retryCount < 2 then retry v
              else (.ok (errorResult error.text), v)).2.attempts := by
        intro v hv
        rw [← hv]
        split
        · exact hretry v
        · exact List.prefix_rfl
      split
      · split
        · exact List.prefix_rfl
        · exact hfinish _ rfl
      · exact hfinish _ rfl
      · exact hfinish _ rfl

theorem prefix_catchError (hretry : ∀ w, w.attempts <+: (retry w).2.attempts) (w : CallWorld)
    (error : ForwardError) (env : ClaimedEnv) (retryCount : Nat) (id : String) :
    w.attempts <+: (w.catchError retryCount id env retry error).2.attempts := by
  have hwritten := attempts_catchError hretry w error env retryCount id
  split at hwritten
  · exact (List.prefix_append _ _).trans hwritten
  · simp [hwritten]

theorem prefix_tryCall (w : CallWorld) (id : String) (env : ClaimedEnv) :
    w.attempts <+: (w.tryCall id env).2.attempts := by
  cases hfailure : env.failure with
  | none =>
    obtain ⟨a, _, hattempts⟩ := attempts_tryCall hfailure w id
    rw [hattempts]
    exact List.prefix_append _ _
  | some error =>
    simp [(tryCall_failure hfailure w id).2.1]

theorem prefix_tryOrCatch (hretry : ∀ w, w.attempts <+: (retry w).2.attempts) (w : CallWorld)
    (retryCount : Nat) (id : String) (env : ClaimedEnv) :
    w.attempts <+: (w.tryOrCatch retryCount id env retry).2.attempts := by
  have htried := prefix_tryCall w id env
  simp only [tryOrCatch]
  split
  · exact htried
  · exact htried.trans (prefix_catchError hretry _ _ env retryCount id)

/-- Nothing that has been written is taken back; the induction is on the retries. -/
theorem prefix_handleToolCall (request : MappedRequest) (execution : ToolExecution)
    (retryCount : Nat) (w : CallWorld) :
    w.attempts <+: (handleToolCall request execution retryCount w).2.attempts := by
  induction execution generalizing retryCount w with
  | unclaimed outcome mapperThen => exact List.prefix_rfl
  | claimed id env retry ih =>
    simp only [handleToolCall, attempts_cleanUp]
    exact prefix_tryOrCatch (ih (retryCount + 1)) (w.start request id env) retryCount id env

/-- What the two parts write together. -/
theorem attempts_tryOrCatch (hretry : ∀ w, w.attempts <+: (retry w).2.attempts) (w : CallWorld)
    (retryCount : Nat) (id : String) (env : ClaimedEnv) :
    if env.settles w.timeoutCount then
      ∃ a : SettleAttempt, a.id = id ∧
        w.attempts ++ [a] <+: (w.tryOrCatch retryCount id env retry).2.attempts
    else (w.tryOrCatch retryCount id env retry).2.attempts = w.attempts := by
  cases hfailure : env.failure with
  | none =>
    obtain ⟨a, hid, hwritten⟩ := attempts_tryCall hfailure w id
    rw [if_pos (by simp [ClaimedEnv.settles, hfailure])]
    refine ⟨a, hid, ?_⟩
    rw [← hwritten]
    simp only [tryOrCatch]
    split
    · exact List.prefix_rfl
    · exact prefix_catchError hretry _ _ env retryCount id
  | some error =>
    obtain ⟨hthrown, hwritten, hcount⟩ := tryCall_failure hfailure w id
    have hcatch := attempts_catchError hretry (w.tryCall id env).2 error env retryCount id
    rw [hwritten, hcount] at hcatch
    simp only [ClaimedEnv.settles, hfailure, tryOrCatch, hthrown]
    split at hcatch
    · next hcond =>
      rw [if_pos hcond]
      exact ⟨_, rfl, hcatch⟩
    · next hcond =>
      rw [if_neg hcond]
      exact hcatch

/-! ## What is removed -/

theorem getMappingEntry_cleanUp (w : CallWorld) (timer : Nat) (proxyRequestId : String) :
    (w.cleanUp timer proxyRequestId).mapper.getMappingEntry proxyRequestId = none := by
  cases h : (w.cleanUp timer proxyRequestId).mapper.getMappingEntry proxyRequestId with
  | none => rfl
  | some entry => exact absurd rfl (RequestIdMapper.get?_removeMapping h).1

theorem heartbeats_cleanUp {w : CallWorld} {timer : Nat} {proxyRequestId : String}
    {heartbeat : Nat × String} (h : heartbeat ∈ (w.cleanUp timer proxyRequestId).heartbeats) :
    heartbeat.1 ≠ timer := by
  simpa using (List.mem_filter.mp h).2

/-- A claimed approval is settled, that is, `markExecuted` or `markFailed` has been attempted for its
    row and its heartbeat and its mapping have been removed when the handler returns or throws,
    exactly when the call does not fail before its outcome is written or the failure is counted and
    logged. -/
theorem claimed_call_settles (request : MappedRequest) (id : String) (env : ClaimedEnv)
    (retry : ToolExecution) (retryCount : Nat) (w : CallWorld) :
    let w' := (handleToolCall request (.claimed id env retry) retryCount w).2
    ((∃ a ∈ w'.attempts.drop w.attempts.length, a.id = id) ∧
      (∀ heartbeat ∈ w'.heartbeats, heartbeat.1 ≠ w.nextTimer) ∧
      w'.mapper.getMappingEntry (w.registerRequest request env).1 = none) ↔
    env.settles w.timeoutCount = true := by
  intro w'
  have hattempts := attempts_tryOrCatch (prefix_handleToolCall request retry (retryCount + 1))
    (w.start request id env) retryCount id env
  have hcount : (w.start request id env).timeoutCount = w.timeoutCount := rfl
  rw [hcount] at hattempts
  constructor
  · rintro ⟨⟨a, ha, _⟩, _, _⟩
    by_contra hcond
    rw [if_neg hcond] at hattempts
    have hnone : w'.attempts = w.attempts := hattempts
    rw [hnone] at ha
    simp at ha
  · intro hcond
    rw [if_pos hcond] at hattempts
    obtain ⟨a, hid, later, hlater⟩ := hattempts
    refine ⟨⟨a, ?_, hid⟩, ?_, ?_⟩
    · have hall : w'.attempts = w.attempts ++ [a] ++ later := hlater.symm
      rw [hall]
      simp
    · intro heartbeat hmem
      exact heartbeats_cleanUp hmem
    · exact getMappingEntry_cleanUp _ _ _

/-- The downstream server does not answer, and the error cannot be logged. -/
def unloggedEnv : ClaimedEnv where
  idTime := 0
  entryTime := 0
  mapperThen _ m := m
  countThen _ n := n
  callTool := .error (.requestTimeout "McpError: MCP error -32001: Request timed out")
  logResponse := .ok ()
  mark := .ok true
  notify := .ok ()
  ping := .answered
  logError := .error (.other "Error: LogService not initialized")
  markFailed := .ok true
  notifyFailed := .ok ()

theorem claimed_row_unsettled :
    ¬ ∀ (request : MappedRequest) (id : String) (env : ClaimedEnv) (retry : ToolExecution)
      (retryCount : Nat) (w : CallWorld),
      let w' := (handleToolCall request (.claimed id env retry) retryCount w).2
      (∃ a ∈ w'.attempts.drop w.attempts.length, a.id = id) ∧
        (∀ heartbeat ∈ w'.heartbeats, heartbeat.1 ≠ w.nextTimer) ∧
        w'.mapper.getMappingEntry (w.registerRequest request env).1 = none := by
  intro h
  obtain ⟨⟨a, ha, _⟩, _⟩ := h ⟨.str "1", "files", none⟩ "approval" unloggedEnv
    (.unclaimed (.ok .null) id) 0 ⟨.init "session", [], 0, 0, []⟩
  have hattempts : (handleToolCall ⟨.str "1", "files", none⟩
      (.claimed "approval" unloggedEnv (.unclaimed (.ok .null) id)) 0
      ⟨.init "session", [], 0, 0, []⟩).2.attempts = [] := rfl
  rw [hattempts] at ha
  simp at ha

end CallWorld

end PetaCore
