import PetaCore.Core.ToolCall
import PetaCore.Spec.ApprovalLifecycle

/-!
# What a step of a tool call can do

`CallStep` says once what a step of a call can do: which part of the approval flow it
moves to, on what evidence, and with what effect on the approval and policy systems. The
invariants of calls are derived from it without looking at `ToolCall.step` again.

## Key results

- `ToolCall.step_callStep`: every step of `ToolCall.step` is a `CallStep`
- `Gateway.step_cases`: every step of the gateway, as the calls and the approvals see it
-/

namespace PetaCore

open Run ApprovalTable

namespace CallPc

/-- What the call asks approval for, from the policy decision to the claim. -/
def ask? : CallPc → Option Ask
  | findActive ask | countByHash ask | countByTool ask _ | create ask _ | wait ask _
  | claim ask _ => some ask
  | _ => none

/-- The approval request the call waits for or is about to claim. -/
def row? : CallPc → Option (Ask × String)
  | wait ask id | claim ask id => some (ask, id)
  | _ => none

/-- What the call forwards, from the permission to do so to the end of the call. -/
def forward? : CallPc → Option Forward
  | forward f | inFlight f | respond f _ _ | settle f _ _ | recover f _ | logError f _ _
  | markFailed f _ _ => some f
  | _ => none

/-- The call may still send its forward, or has sent it and got no answer yet. -/
def isRunning : CallPc → Bool
  | forward _ | inFlight _ => true
  | _ => false

variable {pc : CallPc}

theorem ask?_of_row? {ask : Ask} {id : String} (h : pc.row? = some (ask, id)) : pc.ask? = some ask := by
  cases pc with
  | wait _ _ | claim _ _ => exact congrArg some (Prod.mk.inj (Option.some.inj h)).1
  | _ => cases h

theorem ask?_of_forward? {f : Forward} (h : pc.forward? = some f) :
    pc.ask? = none := by
  cases pc <;> first | rfl | cases h

theorem forward?_of_ask? {ask : Ask} (h : pc.ask? = some ask) :
    pc.forward? = none := by
  cases pc <;> first | rfl | cases h

end CallPc

/-- A step of a call from `c` to the returned call, with its effect. -/
inductive CallStep (rt : DslRuntime) (sha256 : String → String) (s : ApprovalState)
    (p : PolicyState) (c : ToolCall) : CallEffect → ToolCall → Prop
  | stop (n : Nat) (pc : CallPc) (hpc : pc = .done ∨ pc = .resolve) :
      CallStep rt sha256 s p c .none { c with retryCount := n, pc := pc }
  | evaluate (route : Route) (dangerLevel : DangerLevel) (hpc : c.pc = .resolve) :
      CallStep rt sha256 s p c
        (.policy (.evaluate ⟨c.request.userId, some route.serverId, route.toolName,
          c.request.args, dangerLevel⟩))
        { c with pc := .evaluate route p.evaluations.length }
  | allowed (route : Route) (e : Nat) (ev : Evaluation) (result : PolicyEvaluateResult)
      (hpc : c.pc = .evaluate route e) (hev : p.evaluations[e]? = some ev)
      (hres : ev.result rt = some result) (hdec : result.decision = .allow) :
      CallStep rt sha256 s p c .none { c with pc := .forward ⟨route, result, none⟩ }
  | ask (route : Route) (e : Nat) (ev : Evaluation) (result : PolicyEvaluateResult)
      (hpc : c.pc = .evaluate route e) (hev : p.evaluations[e]? = some ev)
      (hres : ev.result rt = some result) (hdec : result.decision = .requireApproval) :
      CallStep rt sha256 s p c .none
        { c with pc := .findActive ⟨route, result, ev.source rt,
            c.requestHash sha256 route result.policyVersion⟩ }
  | count (ask : Ask) (pc : CallPc) (hask : c.pc.ask? = some ask)
      (hpc : pc = .countByHash ask ∨ ∃ since, pc = .countByTool ask since) :
      CallStep rt sha256 s p c .none { c with pc := pc }
  | create (ask : Ask) (since now : Timestamp) (redactedArgs : Json)
      (hpc : c.pc = .countByTool ask since) :
      CallStep rt sha256 s p c
        (.approval (.createOrGetPending (c.createParams ask now redactedArgs)))
        { c with pc := .create ask s.creates.length }
  | found (ask : Ask) (row : ApprovalRequest) (pc : CallPc) (hask : c.pc.ask? = some ask)
      (hrow : (row ∈ s.table ∧ row.requestHash = ask.requestHash) ∨
        ∃ k cc created, c.pc = .create ask k ∧ s.creates[k]? = some cc ∧
          cc.pc = .done (.returned created row))
      (hpc : pc = .wait ask row.id ∨ pc = .claim ask row.id) :
      CallStep rt sha256 s p c .none { c with pc := pc }
  | approved (ask : Ask) (id : String) (hpc : c.pc = .wait ask id) :
      CallStep rt sha256 s p c .none { c with pc := .claim ask id }
  | claimed (ask : Ask) (id : String) (row : ApprovalRequest) (rows : List ApprovalRequest)
      (hpc : c.pc = .claim ask id)
      (hrows : (s.table.claimApprovedForExecutionById id s.clock).2 = row :: rows) :
      CallStep rt sha256 s p c (.approval (.claimApprovedForExecutionById id))
        { c with pc := .forward ⟨ask.route, ask.result, some row.id⟩ }
  | lost (ask : Ask) (id : String) (hpc : c.pc = .claim ask id)
      (hrows : (s.table.claimApprovedForExecutionById id s.clock).2 = []) :
      CallStep rt sha256 s p c (.approval (.claimApprovedForExecutionById id))
        { c with pc := .done }
  | send (f : Forward) (hpc : c.pc = .forward f) :
      CallStep rt sha256 s p c .none { c with pc := .inFlight f }
  | advance (f : Forward) (pc : CallPc) (hpc : c.pc.forward? = some f)
      (hf : pc.forward? = some f) (hrun : pc.isRunning = false) :
      CallStep rt sha256 s p c .none { c with pc := pc }
  | touch (f : Forward) (id : String) (hpc : c.pc.forward? = some f)
      (hid : f.approvalRequestId = some id) :
      CallStep rt sha256 s p c (.approval (.touchExecuting id)) c
  | settle (f : Forward) (id : String) (a : ApprovalAction) (n : Nat) (pc : CallPc)
      (hpc : c.pc.forward? = some f) (hid : f.approvalRequestId = some id)
      (hrun : c.pc.isRunning = false)
      (ha : (∃ stored now, a = .markExecuted id stored now) ∨
        ∃ error now, a = .markFailed id error now)
      (hpc' : pc = .done ∨ pc = .resolve ∨
        (pc.forward? = some f ∧ pc.isRunning = false ∧ n = c.retryCount)) :
      CallStep rt sha256 s p c (.approval a) { c with retryCount := n, pc := pc }

namespace ToolCall

variable {rt : DslRuntime} {sha256 : String → String} {s : ApprovalState} {p : PolicyState}

variable {c : ToolCall}

/-- What a call does with the request it was given by `checkOrCreateApproval`. -/
private theorem afterCheck_callStep {ask : Ask} {row : ApprovalRequest}
    (b : Bool) (hask : c.pc.ask? = some ask)
    (hrow : (row ∈ s.table ∧ row.requestHash = ask.requestHash) ∨
      ∃ k cc created, c.pc = .create ask k ∧ s.creates[k]? = some cc ∧
        cc.pc = .done (.returned created row)) :
    CallStep rt sha256 s p c .none { c with pc := c.afterCheck ask row b } := by
  simp only [afterCheck]
  split
  · exact .found ask row _ hask hrow (.inr rfl)
  · split
    · exact .found ask row _ hask hrow (.inl rfl)
    · exact .stop c.retryCount .done (.inl rfl)

private theorem afterError_callStep {f : Forward} (error : String) (hpc : c.pc.forward? = some f) :
    CallStep rt sha256 s p c .none { c with pc := c.afterError f error } := by
  simp only [afterError]
  split
  · exact .advance f _ hpc rfl rfl
  · exact .advance f _ hpc rfl rfl

private theorem heartbeat_forward {id : String} (h : c.heartbeat = some id) :
    ∃ f, c.pc.forward? = some f ∧ f.approvalRequestId = some id := by
  simp only [heartbeat] at h
  split at h
  iterate 6
    · rename_i hpc
      exact ⟨_, by rw [hpc]; rfl, h⟩
  · cases h

variable {a : CallAction}

/-- Every step of a call is one of the steps of `CallStep`. -/
theorem step_callStep {c' : ToolCall} {effect : CallEffect}
    (h : c.step rt sha256 s p a = some (effect, c')) : CallStep rt sha256 s p c effect c' := by
  cases a with
  | resolve route dangerLevel =>
    simp only [step] at h
    split at h
    · rename_i hpc
      cases h
      exact .evaluate route dangerLevel hpc
    · cases h
  | giveUp | stopWaiting | recordTimeoutThrows =>
    simp only [step] at h
    split at h
    · cases h
      exact .stop c.retryCount .done (.inl rfl)
    · cases h
  | decided =>
    simp only [step] at h
    split at h
    · rename_i route e hpc
      obtain ⟨ev, hev, h⟩ := Option.bind_eq_some_iff.mp h
      obtain ⟨result, hres, h⟩ := Option.bind_eq_some_iff.mp h
      cases h
      simp only [afterEvaluate]
      split
      · exact .stop c.retryCount .done (.inl rfl)
      · rename_i hdec
        exact .allowed route e ev result hpc hev hres hdec
      · rename_i hdec
        exact .ask route e ev result hpc hev hres hdec
    · cases h
  | findActive now =>
    simp only [step] at h
    split at h
    · rename_i ask hpc
      have hask : c.pc.ask? = some ask := by rw [hpc]; rfl
      split at h
      · split at h
        · rename_i row hrow
          cases h
          obtain ⟨hmem, hhash, _⟩ := findActiveByRequestHash_some hrow
          exact afterCheck_callStep _ hask (.inl ⟨hmem, hhash⟩)
        · cases h
          exact .count ask _ hask (.inl rfl)
      · cases h
    · cases h
  | countByHash now =>
    simp only [step] at h
    split at h
    · rename_i ask hpc
      split at h
      · split at h
        · cases h
          exact .stop c.retryCount .done (.inl rfl)
        · cases h
          exact .count ask _ (by rw [hpc]; rfl) (.inr ⟨_, rfl⟩)
      · cases h
    · cases h
  | countByTool now redactedArgs =>
    simp only [step] at h
    split at h
    · rename_i ask since hpc
      split at h
      · split at h
        · cases h
          exact .stop c.retryCount .done (.inl rfl)
        · cases h
          exact .create ask since now redactedArgs hpc
      · cases h
    · cases h
  | created =>
    simp only [step] at h
    split at h
    · rename_i ask k hpc
      obtain ⟨cc, hcc, h⟩ := Option.bind_eq_some_iff.mp h
      split at h
      · rename_i created row hdone
        cases h
        exact afterCheck_callStep _ (by rw [hpc]; rfl)
          (.inr ⟨k, cc, created, hpc, hcc, hdone⟩)
      · cases h
        exact .stop c.retryCount .done (.inl rfl)
      · cases h
    · cases h
  | poll =>
    simp only [step] at h
    split at h
    · rename_i ask id hpc
      obtain ⟨pc, hpoll, h⟩ := Option.bind_eq_some_iff.mp h
      cases h
      simp only [afterPoll] at hpoll
      split at hpoll
      · cases hpoll
        exact .stop c.retryCount .done (.inl rfl)
      · split at hpoll
        · cases hpoll
          exact .approved ask id hpc
        · cases hpoll
        · cases hpoll
        all_goals
          cases hpoll
          exact .stop c.retryCount .done (.inl rfl)
    · cases h
  | claim =>
    simp only [step] at h
    split at h
    · rename_i ask id hpc
      split at h
      · rename_i row rows hrows
        cases h
        exact .claimed ask id row rows hpc hrows
      · rename_i hrows
        cases h
        exact .lost ask id hpc hrows
    · cases h
  | send =>
    simp only [step] at h
    split at h
    · rename_i f hpc
      cases h
      exact .send f hpc
    · cases h
  | serveCached result isError =>
    simp only [step] at h
    split at h
    · rename_i f hpc
      split at h
      · cases h
        exact .advance f _ (by rw [hpc]; rfl) rfl rfl
      · cases h
    · cases h
  | cannotSend error =>
    simp only [step] at h
    split at h
    · rename_i f hgen hpc
      cases h
      exact afterError_callStep error (by rw [hpc]; rfl)
    · cases h
  | touch =>
    obtain ⟨id, hid, h⟩ := Option.bind_eq_some_iff.mp h
    cases h
    obtain ⟨f, hf, hfid⟩ := heartbeat_forward hid
    exact .touch f id hf hfid
  | respond result isError =>
    simp only [step] at h
    split at h
    · rename_i f hpc
      cases h
      exact .advance f _ (by rw [hpc]; rfl) rfl rfl
    · cases h
  | reject error =>
    simp only [step] at h
    split at h
    · rename_i f hpc
      cases h
      exact afterError_callStep error (by rw [hpc]; rfl)
    · cases h
  | logged error =>
    simp only [step] at h
    split at h
    · rename_i f result isError hpc
      split at h
      · cases h
        exact .advance f _ (by rw [hpc]; rfl) rfl rfl
      · cases h
        exact afterError_callStep _ (by rw [hpc]; rfl)
    · cases h
  | settle ok stored now =>
    simp only [step] at h
    split at h
    · rename_i f result isError hpc
      split at h
      · rename_i id hid
        cases h
        refine .settle f id _ c.retryCount .done (by rw [hpc]; rfl) hid (by rw [hpc]; rfl) ?_
          (.inl rfl)
        simp only [settleAction]
        split
        · exact .inr ⟨_, _, rfl⟩
        · exact .inl ⟨_, _, rfl⟩
        · exact .inl ⟨_, _, rfl⟩
      · cases h
        exact .stop c.retryCount .done (.inl rfl)
    · cases h
  | recordTimeout isReconnected =>
    simp only [step] at h
    split at h
    · rename_i f error hpc
      cases h
      exact .advance f _ (by rw [hpc]; rfl) rfl rfl
    · cases h
  | errorLogged ok =>
    simp only [step] at h
    split at h
    · rename_i f error isReconnected hpc
      split at h
      · cases h
        exact .advance f _ (by rw [hpc]; rfl) rfl rfl
      · cases h
        exact .stop c.retryCount .done (.inl rfl)
      · cases h
        exact .stop c.retryCount .done (.inl rfl)
    · cases h
  | markFailed ok now =>
    simp only [step] at h
    split at h
    · rename_i f error isReconnected hpc
      have hf : c.pc.forward? = some f := by rw [hpc]; rfl
      have hrun : c.pc.isRunning = false := by rw [hpc]; rfl
      split at h
      · rename_i id hid
        cases h
        have ha : (∃ stored now', ApprovalAction.markFailed id error now =
              .markExecuted id stored now') ∨
            ∃ error' now', ApprovalAction.markFailed id error now =
              .markFailed id error' now' := .inr ⟨error, now, rfl⟩
        split
        · simp only [afterFailure]
          split
          · exact .settle f id _ _ .resolve hf hid hrun ha (.inr (.inl rfl))
          · exact .settle f id _ c.retryCount .done hf hid hrun ha (.inl rfl)
        · exact .settle f id _ c.retryCount _ hf hid hrun ha
            (.inr (.inr ⟨rfl, rfl, rfl⟩))
      · cases h
        split
        · simp only [afterFailure]
          split
          · exact .stop _ .resolve (.inr rfl)
          · exact .stop c.retryCount .done (.inl rfl)
        · exact .advance f _ hf rfl rfl
    · cases h

/-- An evaluation is started when a call is resolved, with the danger level found then. -/
theorem step_evaluate {c' : ToolCall} {params : PolicyEvaluateParams}
    (h : c.step rt sha256 s p a = some (.policy (.evaluate params), c')) :
    ∃ route, a = .resolve route params.dangerLevel ∧
      c' = { c with pc := .evaluate route p.evaluations.length } := by
  -- only an unresolved call has such an effect, and it has no other step than this one
  have hpc : c.pc = .resolve := by
    cases step_callStep h with
    | evaluate route dangerLevel hpc => exact hpc
  cases a with
  | resolve route dangerLevel =>
    simp only [step, hpc] at h
    cases h
    exact ⟨route, rfl, rfl⟩
  | touch =>
    simp only [step, heartbeat, hpc] at h
    cases hgen : c.request.generation <;> simp [hgen] at h
  | cannotSend error =>
    simp only [step, hpc] at h
    cases hgen : c.request.generation <;> simp [hgen] at h
  | _ =>
    simp only [step, hpc] at h
    cases h

/-- A call waits for `createOrGetPending` until that has ended. -/
theorem step_create {c' : ToolCall} {effect : CallEffect}
    (h : c.step rt sha256 s p a = some (effect, c')) {ask : Ask} {k : Nat}
    (hpc : c.pc = .create ask k) (hpc' : c'.pc ≠ .create ask k) :
    ∃ cc res, s.creates[k]? = some cc ∧ cc.pc = .done res := by
  cases a with
  | created =>
    simp only [step, hpc] at h
    obtain ⟨cc, hcc, h⟩ := Option.bind_eq_some_iff.mp h
    split at h
    · rename_i created row hdone
      exact ⟨cc, _, hcc, hdone⟩
    · rename_i message hdone
      exact ⟨cc, _, hcc, hdone⟩
    · cases h
  | touch =>
    obtain ⟨id, hid, h⟩ := Option.bind_eq_some_iff.mp h
    cases h
    exact absurd hpc hpc'
  | cannotSend error =>
    simp only [step, hpc] at h
    split at h
    · rename_i heq
      cases heq
    · cases h
  | _ =>
    simp only [step, hpc] at h
    cases h

end ToolCall

/-! ## The gateway -/

/-- A transition of the gateway. -/
abbrev GatewayTransition := Transition Gateway GatewayAction

/-- A step of the gateway. -/
inductive GatewayStep (rt : DslRuntime) (sha256 : String → String) (g : Gateway) :
    GatewayAction → Gateway → Prop
  | background (a : ApprovalAction) (s : ApprovalState) (ha : a.isBackground = true)
      (hs : g.approvals.step a = some s) :
      GatewayStep rt sha256 g (.approval a) { g with approvals := s }
  | sweep (now : Timestamp) (s : ApprovalState)
      (hs : g.approvals.step (.recoverStaleExecuting (now - executingStaleTimeoutMs)) =
        some s) :
      GatewayStep rt sha256 g (.recoverStaleExecuting now) { g with approvals := s }
  | policy (a : PolicyAction) (p : PolicyState)
      (hp : g.policy.step g.approvals.clock a = some p) :
      GatewayStep rt sha256 g (.policy a) { g with policy := p }
  | start (request : ToolCallRequest) :
      GatewayStep rt sha256 g (.start request)
        { g with calls := g.calls ++ [⟨request, 0, .resolve⟩] }
  | call (i : Nat) (a : CallAction) (c c' : ToolCall) (effect : CallEffect) (g' : Gateway)
      (hc : g.calls[i]? = some c)
      (hstep : CallStep rt sha256 g.approvals g.policy c effect c')
      (happ : g.apply effect = some g') :
      GatewayStep rt sha256 g (.call i a) { g' with calls := g.calls.set i c' }

namespace Gateway

variable {rt : DslRuntime} {sha256 : String → String}

variable {g g' : Gateway}

/-- What carrying out an effect can change. -/
theorem apply_cases {effect : CallEffect} (h : g.apply effect = some g') :
    (effect = .none ∧ g' = g) ∨
    (∃ a s, effect = .approval a ∧ g.approvals.step a = some s ∧
      g' = { g with approvals := s }) ∨
    (∃ a p, effect = .policy a ∧ g.policy.step g.approvals.clock a = some p ∧
      g' = { g with policy := p }) := by
  cases effect with
  | none => exact .inl ⟨rfl, (Option.some.inj h).symm⟩
  | approval a =>
    obtain ⟨s, hs, h⟩ := Option.bind_eq_some_iff.mp h
    exact .inr (.inl ⟨a, s, rfl, hs, (Option.some.inj h).symm⟩)
  | policy a =>
    obtain ⟨p, hp, h⟩ := Option.bind_eq_some_iff.mp h
    exact .inr (.inr ⟨a, p, rfl, hp, (Option.some.inj h).symm⟩)

theorem apply_approval {a : ApprovalAction} (h : g.apply (.approval a) = some g') :
    ∃ s, g.approvals.step a = some s ∧ g' = { g with approvals := s } := by
  obtain ⟨s, hs, h⟩ := Option.bind_eq_some_iff.mp h
  exact ⟨s, hs, (Option.some.inj h).symm⟩

theorem apply_calls {effect : CallEffect} (h : g.apply effect = some g') :
    g'.calls = g.calls := by
  rcases apply_cases h with ⟨_, rfl⟩ | ⟨a, s, _, _, rfl⟩ | ⟨a, p, _, _, rfl⟩ <;> rfl

/-- A step of a call, taken apart. -/
theorem step_call {i : Nat} {a : CallAction} (h : g.step rt sha256 (.call i a) = some g') :
    ∃ c effect c' g₁, g.calls[i]? = some c ∧
      c.step rt sha256 g.approvals g.policy a = some (effect, c') ∧
      g.apply effect = some g₁ ∧ g' = { g₁ with calls := g.calls.set i c' } := by
  obtain ⟨c, hc, h⟩ := Option.bind_eq_some_iff.mp h
  obtain ⟨⟨effect, c'⟩, hstep, h⟩ := Option.bind_eq_some_iff.mp h
  obtain ⟨g₁, happ, h⟩ := Option.bind_eq_some_iff.mp h
  refine ⟨c, effect, c', g₁, hc, hstep, happ, ?_⟩
  rw [← apply_calls happ]
  exact (Option.some.inj h).symm

/-- Every step of the gateway is one of the steps of `GatewayStep`. -/
theorem step_cases {a : GatewayAction} (h : g.step rt sha256 a = some g') :
    GatewayStep rt sha256 g a g' := by
  cases a with
  | approval a =>
    simp only [step] at h
    split at h
    · rename_i ha
      obtain ⟨s, hs, h⟩ := Option.bind_eq_some_iff.mp h
      cases h
      exact .background a s ha hs
    · cases h
  | recoverStaleExecuting now =>
    simp only [step, apply] at h
    split at h
    · obtain ⟨s, hs, h⟩ := Option.bind_eq_some_iff.mp h
      cases h
      exact .sweep now s hs
    · cases h
  | policy a =>
    obtain ⟨p, hp, h⟩ := Option.bind_eq_some_iff.mp h
    cases h
    exact .policy a p hp
  | start request =>
    cases h
    exact .start request
  | call i a =>
    obtain ⟨c, effect, c', g₁, hc, hstep, happ, rfl⟩ := step_call h
    exact .call i a c c' effect g₁ hc (ToolCall.step_callStep hstep) happ

end Gateway

end PetaCore
