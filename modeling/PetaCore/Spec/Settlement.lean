import PetaCore.Spec.Execution

/-!
# How a claimed call is settled

A call that has claimed its approval request is forwarded, the downstream server returns a
result or throws, the answer is logged and the outcome is written to the claimed row. The
legacy gateway writes EXECUTED for a result without `isError` and FAILED for every other
outcome. The modern one writes EXECUTED for every result. The legacy error path first asks
`recordTimeout`, and if the reconnection that makes throws, nothing is written.

## Key results

- `ToolCall.step_settling`: what a call has written so far is determined by where it stands
- `generations_record_same_outcome`: exactly when both gateways write the outcome
-/

namespace PetaCore

open Run ApprovalTable

/-! ## Attempts -/

/-- What becomes of a forwarded call: a result, with its `isError`, or a thrown error. -/
inductive Downstream where
  | returned (result : Json) (isError : Bool)
  | threw (error : String)

namespace Downstream

/-- The status that an outcome stands for: EXECUTED exactly for a result whose `isError` is
    not true. -/
def status : Downstream → ApprovalStatus
  | returned _ false => .executed
  | returned _ true | threw _ => .failed

/-- The outcome is a result with `isError`. -/
def isErrorResult : Downstream → Bool
  | returned _ isError => isError
  | threw _ => false

/-- The outcome is a thrown error. -/
def isThrow : Downstream → Bool
  | returned _ _ => false
  | threw _ => true

end Downstream

/-- What a claimed call meets: the outcome downstream, and what `recordTimeout` answers to an
    error (`none` when the reconnection it makes throws). -/
structure Attempt where
  downstream : Downstream
  timeout : Option (Option Bool)

namespace Attempt

/-- The actions of a call in an attempt whose log writes and statements succeed. A retry is
    another attempt, so the call does not start over. -/
def Allows (att : Attempt) : CallAction → Prop
  | .respond result isError => att.downstream = .returned result isError
  | .reject error | .cannotSend error => att.downstream = .threw error
  | .logged error => error = none
  | .recordTimeout isReconnected => att.timeout = some isReconnected
  | .recordTimeoutThrows => att.timeout = none
  | .settle ok _ _ | .errorLogged ok | .markFailed ok _ => ok = true
  | .resolve _ _ | .giveUp => False
  | _ => True

/-- The statuses that each gateway writes in an attempt. -/
def written (att : Attempt) : Generation → List ApprovalStatus
  | .legacy =>
    match att.downstream with
    | .returned _ isError => [if isError then .failed else .executed]
    | .threw _ => if att.timeout.isSome then [.failed] else []
  | .modern =>
    match att.downstream with
    | .returned _ _ => [.executed]
    | .threw _ => [.failed]

end Attempt

/-- The terminal status that an effect writes to the row `id`. -/
def CallEffect.statusWritten (id : String) : CallEffect → Option ApprovalStatus
  | .approval (.markExecuted id' _ _) => if id' = id then some .executed else Option.none
  | .approval (.markFailed id' _ _) => if id' = id then some .failed else Option.none
  | _ => Option.none

/-- Where a call stands in an attempt to execute `f`, with what it has written so far. -/
def Settling (gen : Generation) (att : Attempt) (f : Forward) (ws : List ApprovalStatus) :
    CallPc → Prop
  | .forward f' | .inFlight f' => f' = f ∧ ws = []
  | .respond f' result isError | .settle f' result isError =>
    f' = f ∧ ws = [] ∧ att.downstream = .returned result isError
  | .recover f' error => f' = f ∧ ws = [] ∧ gen = .legacy ∧ att.downstream = .threw error
  | .logError f' error isReconnected =>
    f' = f ∧ att.downstream = .threw error ∧
      match gen with
      | .legacy => ws = [] ∧ att.timeout = some isReconnected
      | .modern => ws = [.failed]
  | .markFailed f' error isReconnected =>
    f' = f ∧ ws = [] ∧ att.downstream = .threw error ∧
      (gen = .legacy → att.timeout = some isReconnected)
  | .done | .resolve => ws = att.written gen
  | _ => False

namespace ToolCall

variable {rt : DslRuntime} {sha256 : String → String} {s : ApprovalState} {p : PolicyState}

/-- The first step of the error path. -/
private theorem afterError_settling {c : ToolCall} {att : Attempt} {f : Forward} {error : String}
    (hd : att.downstream = .threw error) :
    Settling c.request.generation att f [] (c.afterError f error) := by
  simp only [afterError]
  cases hgen : c.request.generation with
  | legacy => exact ⟨rfl, rfl, rfl, hd⟩
  | modern => exact ⟨rfl, rfl, hd, fun h => by cases h⟩

/-- The end of the legacy error path, retried or not. -/
private theorem afterFailure_settling (c : ToolCall) (att : Attempt) (f : Forward)
    (isReconnected : Option Bool) :
    (c.afterFailure isReconnected).request = c.request ∧
      Settling c.request.generation att f (att.written c.request.generation)
        (c.afterFailure isReconnected).pc := by
  simp only [afterFailure]
  split
  · exact ⟨rfl, rfl⟩
  · exact ⟨rfl, rfl⟩

/-- A step of a call in an attempt: what it has written stays what its position says. -/
theorem step_settling {c c' : ToolCall} {a : CallAction} {effect : CallEffect} {att : Attempt}
    {f : Forward} {id : String} {ws : List ApprovalStatus}
    (h : c.step rt sha256 s p a = some (effect, c')) (hallows : att.Allows a)
    (hid : f.approvalRequestId = some id) (hdec : f.result.decision ≠ .allow)
    (hs : Settling c.request.generation att f ws c.pc) :
    c'.request = c.request ∧
      Settling c.request.generation att f (ws ++ (effect.statusWritten id).toList) c'.pc := by
  cases a with
  | send =>
    simp only [step] at h
    split at h
    · rename_i f' hpc
      rw [hpc] at hs
      cases h
      obtain ⟨rfl, rfl⟩ := hs
      exact ⟨rfl, rfl, rfl⟩
    · cases h
  | serveCached result isError =>
    simp only [step] at h
    split at h
    · rename_i f' hpc
      rw [hpc] at hs
      obtain ⟨rfl, rfl⟩ := hs
      -- only a call without approval is answered from the cache
      rw [if_neg hdec] at h
      cases h
    · cases h
  | cannotSend error =>
    simp only [step] at h
    split at h
    · rename_i f' hgen hpc
      rw [hpc] at hs
      cases h
      obtain ⟨rfl, rfl⟩ := hs
      exact ⟨rfl, afterError_settling hallows⟩
    · cases h
  | touch =>
    obtain ⟨id', hid', h⟩ := Option.bind_eq_some_iff.mp h
    cases h
    refine ⟨rfl, ?_⟩
    rw [show (CallEffect.approval (.touchExecuting id')).statusWritten id = none from rfl]
    simpa using hs
  | respond result isError =>
    simp only [step] at h
    split at h
    · rename_i f' hpc
      rw [hpc] at hs
      cases h
      obtain ⟨rfl, rfl⟩ := hs
      exact ⟨rfl, rfl, rfl, hallows⟩
    · cases h
  | reject error =>
    simp only [step] at h
    split at h
    · rename_i f' hpc
      rw [hpc] at hs
      cases h
      obtain ⟨rfl, rfl⟩ := hs
      exact ⟨rfl, afterError_settling hallows⟩
    · cases h
  | logged error =>
    simp only [step] at h
    obtain rfl : error = none := hallows
    split at h
    · rename_i f' result isError hpc
      rw [hpc] at hs
      cases h
      obtain ⟨rfl, rfl, hd⟩ := hs
      exact ⟨rfl, rfl, rfl, hd⟩
    · cases h
  | settle ok stored now =>
    simp only [step] at h
    obtain rfl : ok = true := hallows
    split at h
    · rename_i f' result isError hpc
      rw [hpc] at hs
      obtain ⟨rfl, rfl, hd⟩ := hs
      simp only [hid] at h
      cases h
      refine ⟨rfl, ?_⟩
      show _ = att.written _
      simp only [settleAction, Attempt.written, hd]
      cases c.request.generation <;> cases isError <;> simp [CallEffect.statusWritten]
    · cases h
  | recordTimeout isReconnected =>
    simp only [step] at h
    split at h
    · rename_i f' error hpc
      rw [hpc] at hs
      cases h
      obtain ⟨rfl, rfl, hgen, hd⟩ := hs
      refine ⟨rfl, rfl, hd, ?_⟩
      rw [hgen]
      exact ⟨rfl, hallows⟩
    · cases h
  | recordTimeoutThrows =>
    simp only [step] at h
    split at h
    · rename_i f' error hpc
      rw [hpc] at hs
      cases h
      obtain ⟨rfl, rfl, hgen, hd⟩ := hs
      refine ⟨rfl, ?_⟩
      have hnone : att.timeout = none := hallows
      show _ = att.written _
      simp [Attempt.written, hgen, hd, hnone, CallEffect.statusWritten]
    · cases h
  | errorLogged ok =>
    simp only [step] at h
    obtain rfl : ok = true := hallows
    split at h
    · rename_i f' error isReconnected hpc
      rw [hpc] at hs
      obtain ⟨rfl, hd, hs⟩ := hs
      cases hgen : c.request.generation with
      | legacy =>
        simp only [hgen] at h hs
        cases h
        obtain ⟨rfl, htimeout⟩ := hs
        exact ⟨rfl, rfl, rfl, hd, fun _ => htimeout⟩
      | modern =>
        simp only [hgen] at h hs
        cases h
        refine ⟨rfl, ?_⟩
        show _ = att.written _
        simp [Attempt.written, hd, hs, CallEffect.statusWritten]
    · cases h
  | markFailed ok now =>
    simp only [step] at h
    obtain rfl : ok = true := hallows
    split at h
    · rename_i f' error isReconnected hpc
      rw [hpc] at hs
      obtain ⟨rfl, rfl, hd, htimeout⟩ := hs
      simp only [hid] at h
      cases h
      have hw : (CallEffect.approval (.markFailed id error now)).statusWritten id =
          some .failed := if_pos rfl
      rw [hw]
      cases hgen : c.request.generation with
      | legacy =>
        have hlegacy : att.written .legacy = [.failed] := by
          simp [Attempt.written, hd, htimeout hgen]
        have hafter := afterFailure_settling c att f' isReconnected
        rw [hgen, hlegacy] at hafter
        exact hafter
      | modern => exact ⟨rfl, rfl, hd, rfl⟩
    · cases h
  | resolve _ _ | giveUp => exact hallows.elim
  | _ =>
    -- the remaining actions belong to the part of a call before its claim
    exfalso
    simp only [step] at h
    split at h
    · rename_i hpc
      rw [hpc] at hs
      exact hs
    · cases h

end ToolCall

/-! ## Calls with an approval were asked to have one -/

/-- A call that asks for approval, or forwards with one, does so because of its decision. -/
structure ToolCall.Gated (c : ToolCall) : Prop where
  ask : ∀ ask, c.pc.ask? = some ask → ask.result.decision = .requireApproval
  forward : ∀ f id, c.pc.forward? = some f → f.approvalRequestId = some id →
    f.result.decision = .requireApproval

section

variable {rt : DslRuntime} {sha256 : String → String}

variable {c : ToolCall}

/-- A call that stands before its decision or after its end. -/
private theorem ToolCall.Gated.idle (hask : c.pc.ask? = none)
    (hforward : c.pc.forward? = none) : c.Gated :=
  ⟨fun ask h => by simp [hask] at h, fun f id h _ => by simp [hforward] at h⟩

private theorem ToolCall.Gated.ofAsk {ask : Ask} (hask : c.pc.ask? = some ask)
    (hdec : ask.result.decision = .requireApproval) : c.Gated := by
  refine ⟨fun ask' h => ?_, fun f id h _ => ?_⟩
  · obtain rfl : ask = ask' := Option.some.inj (hask.symm.trans h)
    exact hdec
  · rw [CallPc.forward?_of_ask? hask] at h
    cases h

private theorem ToolCall.Gated.ofForward {f : Forward} (hforward : c.pc.forward? = some f)
    (hdec : ∀ id, f.approvalRequestId = some id → f.result.decision = .requireApproval) :
    c.Gated := by
  refine ⟨fun ask h => ?_, fun f' id h hid => ?_⟩
  · rw [CallPc.ask?_of_forward? hforward] at h
    cases h
  · obtain rfl : f = f' := Option.some.inj (hforward.symm.trans h)
    exact hdec id hid

theorem CallStep.gated {s : ApprovalState} {p : PolicyState} {c' : ToolCall}
    {effect : CallEffect} (h : CallStep rt sha256 s p c effect c') (hc : c.Gated) : c'.Gated := by
  cases h with
  | stop n pc hpc =>
    cases hpc with
    | inl hpc
    | inr hpc => exact .idle (by simp [hpc, CallPc.ask?]) (by simp [hpc, CallPc.forward?])
  | evaluate _ _ _ | lost _ _ _ _ => exact .idle rfl rfl
  | allowed route e ev result hpc hev hres hdec =>
    exact .ofForward rfl (fun id h => by cases h)
  | ask route e ev result hpc hev hres hdec => exact .ofAsk rfl hdec
  | count ask pc hask hpc =>
    have hdec := hc.ask ask hask
    cases hpc with
    | inl hpc => exact .ofAsk (by simp [hpc, CallPc.ask?]) hdec
    | inr hpc =>
      obtain ⟨since, rfl⟩ := hpc
      exact .ofAsk rfl hdec
  | create ask since now redactedArgs hpc =>
    exact .ofAsk rfl (hc.ask ask (by rw [hpc]; rfl))
  | found ask row pc hask hrow hpc =>
    have hdec := hc.ask ask hask
    cases hpc with
    | inl hpc | inr hpc => exact .ofAsk (by simp [hpc, CallPc.ask?]) hdec
  | approved ask id hpc => exact .ofAsk rfl (hc.ask ask (by rw [hpc]; rfl))
  | claimed ask id row rows hpc hrows =>
    exact .ofForward rfl (fun _ _ => hc.ask ask (by rw [hpc]; rfl))
  | send f hpc => exact .ofForward rfl (fun id hid => hc.forward f id (by rw [hpc]; rfl) hid)
  | advance f pc hpc hf hrun => exact .ofForward hf (fun id hid => hc.forward f id hpc hid)
  | touch f id hpc hid => exact hc
  | settle f id a n pc hpc hid hrun ha hpc' =>
    rcases hpc' with rfl | rfl | ⟨hf, _, _⟩
    · exact .idle rfl rfl
    · exact .idle rfl rfl
    · exact .ofForward hf (fun id hid => hc.forward f id hpc hid)

/-- In every gateway reached, every call that holds an approval was decided to need one. -/
theorem gated_of_run {clock : Timestamp} {trs : List GatewayTransition} {g : Gateway}
    (h : IsRun (Gateway.step rt sha256) (.init clock) trs g) : ∀ c ∈ g.calls, c.Gated := by
  refine IsRun.invariant (I := fun g => ∀ c ∈ g.calls, c.Gated) ?_ h (by simp [Gateway.init])
  intro g a g' hg hstep
  cases Gateway.step_cases hstep with
  | background _ _ _ _ | sweep _ _ _ | policy _ _ _ => exact hg
  | start request =>
    intro c hc
    rcases List.mem_append.mp hc with hc | hc
    · exact hg c hc
    · obtain rfl := List.mem_singleton.mp hc
      exact .idle rfl rfl
  | call i a c c' effect g₁ hc hcall happ =>
    intro d hd
    rcases List.mem_or_eq_of_mem_set hd with hd | rfl
    · exact hg d hd
    · exact hcall.gated (hg c (List.mem_of_getElem? hc))

end

/-! ## Runs of an attempt -/

/-- The terminal status that call `i` writes to the row `id` in a transition. -/
def statusWritten (rt : DslRuntime) (sha256 : String → String) (i : Nat) (id : String)
    (tr : GatewayTransition) : Option ApprovalStatus :=
  match tr.act with
  | .call j a =>
    if j = i then do
      let c ← tr.pre.calls[i]?
      let (effect, _) ← c.step rt sha256 tr.pre.approvals tr.pre.policy a
      effect.statusWritten id
    else none
  | _ => none

/-- Call `i` has claimed the row `id` and is about to be forwarded. -/
def Claimed (gen : Generation) (i : Nat) (id : String) (g : Gateway) : Prop :=
  ∃ c f, g.calls[i]? = some c ∧ c.request.generation = gen ∧ c.pc = .forward f ∧
    f.approvalRequestId = some id

/-- A run, with anything else that happens in the gateway, in which call `i` makes an attempt
    to its end. -/
structure Settles (rt : DslRuntime) (sha256 : String → String) (i : Nat) (att : Attempt)
    (g : Gateway) (trs : List GatewayTransition) (g' : Gateway) : Prop where
  run : IsRun (Gateway.step rt sha256) g trs g'
  allows : ∀ tr ∈ trs, ∀ a, tr.act = .call i a → att.Allows a
  ended : ∃ c, g'.calls[i]? = some c ∧ (c.pc = .done ∨ c.pc = .resolve)

section

variable {att : Attempt} {c : ToolCall} {g : Gateway}

variable {rt : DslRuntime} {sha256 : String → String} {i : Nat} {id : String}

/-- A step of call `i`, with what it writes. -/
theorem statusWritten_call (g' : Gateway) (id : String) {a : CallAction} {c c' : ToolCall}
    {effect : CallEffect} (hc : g.calls[i]? = some c)
    (hstep : c.step rt sha256 g.approvals g.policy a = some (effect, c')) :
    statusWritten rt sha256 i id ⟨g, .call i a, g'⟩ = effect.statusWritten id := by
  simp [statusWritten, hc, hstep]

/-- A step that is not one of call `i` leaves the call as it is and writes nothing for it. -/
theorem step_other (id : String) {g g' : Gateway} {a : GatewayAction}
    (h : g.step rt sha256 a = some g') (hother : ∀ b, a ≠ .call i b) (hc : g.calls[i]? = some c) :
    g'.calls[i]? = some c ∧ statusWritten rt sha256 i id ⟨g, a, g'⟩ = none := by
  cases Gateway.step_cases h with
  | background _ _ _ _ | sweep _ _ _ | policy _ _ _ => exact ⟨hc, rfl⟩
  | start request =>
    refine ⟨?_, rfl⟩
    rw [List.getElem?_append_left (List.getElem?_eq_some_iff.mp hc).1]
    exact hc
  | call j a d d' effect g₁ hd hcall happ =>
    have hne : j ≠ i := by
      intro heq
      rw [heq] at hother
      exact hother a rfl
    refine ⟨?_, if_neg hne⟩
    rw [List.getElem?_set_ne hne]
    exact hc

variable {f : Forward}

/-- What a call writes in an attempt, from the claim to the end. -/
theorem settling_of_run {g g' : Gateway} {trs : List GatewayTransition}
    {ws : List ApprovalStatus} (hid : f.approvalRequestId = some id)
    (hdec : f.result.decision ≠ .allow) (hrun : IsRun (Gateway.step rt sha256) g trs g')
    (hallows : ∀ tr ∈ trs, ∀ a, tr.act = .call i a → att.Allows a) (hc : g.calls[i]? = some c)
    (hs : Settling c.request.generation att f ws c.pc) :
    ∃ c', g'.calls[i]? = some c' ∧ Settling c.request.generation att f
      (ws ++ trs.filterMap (statusWritten rt sha256 i id)) c'.pc := by
  induction trs generalizing g c ws with
  | nil =>
    obtain rfl := hrun
    exact ⟨c, hc, by simpa using hs⟩
  | cons tr trs ih =>
    obtain ⟨rfl, hstep, hrest⟩ := hrun
    have hallows' := fun tr' htr' => hallows tr' (List.mem_cons_of_mem tr htr')
    by_cases hown : ∃ a, tr.act = .call i a
    · obtain ⟨a, ha⟩ := hown
      rw [ha] at hstep
      obtain ⟨c₀, effect, c', g₁, hc₀, hcall, happ, hpost⟩ := Gateway.step_call hstep
      obtain rfl : c = c₀ := Option.some.inj (hc.symm.trans hc₀)
      obtain ⟨hreq, hs'⟩ :=
        ToolCall.step_settling hcall (hallows tr List.mem_cons_self a ha) hid hdec hs
      have hc' : tr.post.calls[i]? = some c' := by
        rw [hpost]
        exact List.getElem?_set_self (List.getElem?_eq_some_iff.mp hc).1
      have hw : statusWritten rt sha256 i id tr = effect.statusWritten id := by
        have hw := statusWritten_call tr.post id hc hcall
        rwa [← ha] at hw
      rw [← hreq] at hs' ⊢
      obtain ⟨c'', hc'', hs''⟩ := ih hrest hallows' hc' hs'
      refine ⟨c'', hc'', ?_⟩
      rw [List.append_assoc] at hs''
      cases heffect : effect.statusWritten id with
      | none =>
        rw [List.filterMap_cons_none (hw.trans heffect)]
        simpa [heffect] using hs''
      | some st =>
        rw [List.filterMap_cons_some (hw.trans heffect)]
        simpa [heffect] using hs''
    · obtain ⟨hc', hnone⟩ :=
        step_other id hstep (fun b hb => hown ⟨b, hb⟩) hc
      rw [List.filterMap_cons_none hnone]
      exact ih hrest hallows' hc' hs

/-- A claimed call that is settled has written what its attempt says. -/
theorem written_of_settles {gen : Generation} {clock : Timestamp}
    {before trs : List GatewayTransition} {g g' : Gateway}
    (hbefore : IsRun (Gateway.step rt sha256) (.init clock) before g)
    (hclaimed : Claimed gen i id g) (hsettles : Settles rt sha256 i att g trs g') :
    trs.filterMap (statusWritten rt sha256 i id) = att.written gen := by
  obtain ⟨c, f, hc, rfl, hpc, hid⟩ := hclaimed
  have hdec := (gated_of_run hbefore c (List.mem_of_getElem? hc)).forward f id
    (by rw [hpc]; rfl) hid
  have hstart : Settling c.request.generation att f [] c.pc := by
    rw [hpc]
    exact ⟨rfl, rfl⟩
  obtain ⟨c', hc', hs⟩ := settling_of_run hid (by rw [hdec]; decide) hsettles.run
    hsettles.allows hc hstart
  obtain ⟨d, hd, hend⟩ := hsettles.ended
  obtain rfl : c' = d := Option.some.inj (hc'.symm.trans hd)
  rw [List.nil_append] at hs
  cases hend with
  | inl hdone =>
    rw [hdone] at hs
    exact hs
  | inr hresolve =>
    rw [hresolve] at hs
    exact hs

/-- An effect that writes a status is one of the two settling statements. -/
private theorem CallEffect.statusWritten_some {effect : CallEffect} {st : ApprovalStatus}
    (h : effect.statusWritten id = some st) :
    (∃ stored now, effect = .approval (.markExecuted id stored now) ∧ st = .executed) ∨
    (∃ error now, effect = .approval (.markFailed id error now) ∧ st = .failed) := by
  simp only [CallEffect.statusWritten] at h
  split at h
  · split at h
    · rename_i heq
      cases h
      exact Or.inl ⟨_, _, by rw [heq], rfl⟩
    · cases h
  · split at h
    · rename_i heq
      cases h
      exact Or.inr ⟨_, _, by rw [heq], rfl⟩
    · cases h
  · cases h

/-- A written status is the status of the row from then on, if the row was still executing. -/
theorem statusOf_written {g g' : Gateway} {a : GatewayAction} {st : ApprovalStatus}
    (h : g.step rt sha256 a = some g')
    (hw : statusWritten rt sha256 i id ⟨g, a, g'⟩ = some st)
    (hexecuting : g.approvals.table.statusOf id = some .executing) :
    g'.approvals.table.statusOf id = some st := by
  obtain ⟨b, rfl⟩ : ∃ b, a = .call i b := by
    by_contra hne
    simp only [statusWritten] at hw
    split at hw
    · split at hw
      · rename_i b hj
        exact hne ⟨b, by rw [hj]⟩
      · cases hw
    · cases hw
  obtain ⟨c, effect, c', g₁, hc, hcall, happ, rfl⟩ := Gateway.step_call h
  rw [statusWritten_call _ id hc hcall] at hw
  obtain ⟨r, hr, hstatus⟩ := statusOf_some hexecuting
  have hrid := (findById_mem hr).2
  cases CallEffect.statusWritten_some hw with
  | inl hex =>
    obtain ⟨stored, now, rfl, rfl⟩ := hex
    obtain ⟨s, hs, rfl⟩ := Gateway.apply_approval happ
    simp only [ApprovalState.step] at hs
    split at hs
    · cases hs
      simp [statusOf, markExecuted, findById_updateWhere, hr, hrid, hstatus]
    · cases hs
  | inr hfail =>
    obtain ⟨error, now, rfl, rfl⟩ := hfail
    obtain ⟨s, hs, rfl⟩ := Gateway.apply_approval happ
    simp only [ApprovalState.step] at hs
    split at hs
    · cases hs
      simp [statusOf, markFailed, findById_updateWhere, hr, hrid, hstatus]
    · cases hs

/-! ## Every attempt can be made to its end -/

/-- One step of call `i`, followed by an attempt that goes on from any gateway in which the
    call stands as it does after the step. -/
private theorem settles_cons (a : CallAction) (effect : CallEffect) (c' : ToolCall) (g₁ : Gateway)
    (hc : g.calls[i]? = some c)
    (hstep : c.step rt sha256 g.approvals g.policy a = some (effect, c'))
    (happ : g.apply effect = some g₁) (hallows : att.Allows a)
    (hrest : ∀ h : Gateway, h.calls[i]? = some c' → ∃ trs g', Settles rt sha256 i att h trs g') :
    ∃ trs g', Settles rt sha256 i att g trs g' := by
  have hnext : g.step rt sha256 (.call i a) =
      some { g₁ with calls := g₁.calls.set i c' } := by
    simp [Gateway.step, hc, hstep, happ]
  have hlt : i < g₁.calls.length := by
    rw [Gateway.apply_calls happ]
    exact (List.getElem?_eq_some_iff.mp hc).1
  obtain ⟨trs, g', hrun, hall, hended⟩ :=
    hrest { g₁ with calls := g₁.calls.set i c' } (List.getElem?_set_self hlt)
  refine ⟨⟨g, .call i a, _⟩ :: trs, g', ⟨rfl, hnext, hrun⟩, ?_, hended⟩
  intro tr htr b hb
  cases List.mem_cons.mp htr with
  | inl heq =>
    rw [heq] at hb
    cases hb
    exact hallows
  | inr htr => exact hall tr htr b hb

private theorem settles_nil (hc : g.calls[i]? = some c) (hpc : c.pc = .done ∨ c.pc = .resolve) :
    ∃ trs g', Settles rt sha256 i att g trs g' :=
  ⟨[], g, rfl, fun _ htr => (List.not_mem_nil htr).elim, c, hc, hpc⟩

/-- A call that has got a result is logged and settled. -/
private theorem settles_respond {result : Json} {isError : Bool}
    (hc : g.calls[i]? = some c) (hpc : c.pc = .respond f result isError)
    (hid : f.approvalRequestId = some id) : ∃ trs g', Settles rt sha256 i att g trs g' := by
  refine settles_cons (.logged none) .none { c with pc := .settle f result isError } g
    hc (by simp only [ToolCall.step, hpc]) rfl rfl fun h hc' => ?_
  have hsettle : ∃ s, h.approvals.step
      (c.settleAction id isError result h.approvals.clock) = some s := by
    cases hgen : c.request.generation <;> cases isError <;>
      simp [ToolCall.settleAction, hgen, ApprovalState.step]
  obtain ⟨s, hs⟩ := hsettle
  refine settles_cons (.settle true result h.approvals.clock)
    (.approval (c.settleAction id isError result h.approvals.clock)) { c with pc := .done }
    { h with approvals := s } hc' ?_ ?_ rfl
    fun h' hc'' => settles_nil hc'' (Or.inl rfl)
  · simp only [ToolCall.step, hid]
    rfl
  · simp [Gateway.apply, hs]

/-- A call of the modern gateway that has failed is settled and logged. -/
private theorem settles_modern {error : String} (hc : g.calls[i]? = some c)
    (hgen : c.request.generation = .modern) (hpc : c.pc = .markFailed f error none)
    (hid : f.approvalRequestId = some id) : ∃ trs g', Settles rt sha256 i att g trs g' := by
  refine settles_cons (.markFailed true g.approvals.clock)
    (.approval (.markFailed id error g.approvals.clock)) { c with pc := .logError f error none }
    { g with approvals := { g.approvals with
      table := (g.approvals.table.markFailed id error g.approvals.clock).1 } }
    hc (by simp only [ToolCall.step, hpc, hid, hgen])
    (by simp [Gateway.apply, ApprovalState.step]) rfl fun h hc' => ?_
  exact settles_cons (.errorLogged true) .none { c with pc := .done } h hc'
    (by simp only [ToolCall.step, hgen]) rfl rfl
    fun h' hc'' => settles_nil hc'' (Or.inl rfl)

/-- A call of the legacy gateway that has failed asks `recordTimeout` and is settled, unless
    that throws. -/
private theorem settles_legacy {error : String} (hc : g.calls[i]? = some c)
    (hgen : c.request.generation = .legacy) (hpc : c.pc = .recover f error)
    (hid : f.approvalRequestId = some id) : ∃ trs g', Settles rt sha256 i att g trs g' := by
  cases htimeout : att.timeout with
  | none =>
    exact settles_cons .recordTimeoutThrows .none { c with pc := .done } g hc
      (by simp only [ToolCall.step, hpc]) rfl htimeout
      fun h hc' => settles_nil hc' (Or.inl rfl)
  | some isReconnected =>
    refine settles_cons (.recordTimeout isReconnected) .none
      { c with pc := .logError f error isReconnected } g hc
      (by simp only [ToolCall.step, hpc]) rfl htimeout fun h hc' => ?_
    refine settles_cons (.errorLogged true) .none
      { c with pc := .markFailed f error isReconnected } h hc'
      (by simp only [ToolCall.step, hgen]) rfl rfl fun h' hc'' => ?_
    refine settles_cons (.markFailed true h'.approvals.clock)
      (.approval (.markFailed id error h'.approvals.clock))
      (({ c with pc := .markFailed f error isReconnected } : ToolCall).afterFailure
        isReconnected)
      { h' with approvals := { h'.approvals with
        table := (h'.approvals.table.markFailed id error h'.approvals.clock).1 } }
      hc'' (by simp only [ToolCall.step, hid, hgen])
      (by simp [Gateway.apply, ApprovalState.step]) rfl
      fun h'' hc''' => settles_nil hc''' ?_
    simp only [ToolCall.afterFailure]
    split
    · exact Or.inr rfl
    · exact Or.inl rfl

/-- Whatever a claimed call meets, it can be run to its end. -/
theorem exists_settles (rt : DslRuntime) (sha256 : String → String) {gen : Generation}
    (att : Attempt) (hclaimed : Claimed gen i id g) :
    ∃ trs g', Settles rt sha256 i att g trs g' := by
  obtain ⟨c, f, hc, rfl, hpc, hid⟩ := hclaimed
  refine settles_cons .send .none { c with pc := .inFlight f } g hc
    (by simp only [ToolCall.step, hpc]) rfl trivial fun h hc' => ?_
  cases hd : att.downstream with
  | returned result isError =>
    exact settles_cons (.respond result isError) .none
      { c with pc := .respond f result isError } h hc' rfl rfl hd
      fun h' hc'' => settles_respond hc'' rfl hid
  | threw error =>
    refine settles_cons (.reject error) .none
      { c with pc := c.afterError f error } h hc' rfl rfl hd fun h' hc'' => ?_
    cases hgen : c.request.generation with
    | legacy => exact settles_legacy hc'' hgen (by simp only [ToolCall.afterError, hgen]; rfl) hid
    | modern => exact settles_modern hc'' hgen (by simp only [ToolCall.afterError, hgen]; rfl) hid

end

/-! ## Both gateways -/

/-- The legacy gateway writes the outcome unless `recordTimeout` throws on an error. -/
theorem Attempt.written_legacy (att : Attempt) :
    att.written .legacy = [att.downstream.status] ↔
      (att.downstream.isThrow = true → att.timeout ≠ none) := by
  obtain ⟨downstream, timeout⟩ := att
  cases downstream with
  | returned result isError => cases isError <;> simp [written, Downstream.status, Downstream.isThrow]
  | threw error => cases timeout <;> simp [written, Downstream.status, Downstream.isThrow]

/-- The modern gateway writes the outcome unless it is a result with `isError`. -/
theorem Attempt.written_modern (att : Attempt) :
    att.written .modern = [att.downstream.status] ↔ att.downstream.isErrorResult = false := by
  obtain ⟨downstream, timeout⟩ := att
  cases downstream with
  | returned result isError =>
    cases isError <;> simp [written, Downstream.status, Downstream.isErrorResult]
  | threw error => simp [written, Downstream.status, Downstream.isErrorResult]

/-- A call of this generation asks for approval, which is granted, and claims it. A legacy call
    waits for the decision; for a modern one it is a second, identical call that claims. -/
def claimRun : Generation → List GatewayAction
  | .legacy =>
    [.start { purgeRequest with generation := .legacy },
      .call 0 (.resolve purgeRoute .approval), .policy (.readServer 0),
      .policy (.readGlobal 0), .policy (.store 0), .call 0 .decided, .call 0 (.findActive 0),
      .call 0 (.countByHash 0), .call 0 (.countByTool 0 (.obj [])),
      .approval (.createInsert 0 "a" 0), .call 0 .created,
      .approval (.decide "a" .approved ⟨some "alice", some .user, .socket⟩ none 0),
      .call 0 .poll, .call 0 .claim]
  | .modern =>
    askForApproval 0 0 0 "a" 0 ++
    [.start purgeRequest, .call 1 (.resolve purgeRoute .approval), .call 1 .decided,
      .call 1 (.findActive 0), .call 1 .claim]

/-- The position of the call that claims. -/
def claimant : Generation → Nat
  | .legacy => 0
  | .modern => 1

/-- What is to be seen of a gateway in which a call has claimed. -/
def claimView (gen : Generation) (g : Gateway) : Option (Generation × Option String) :=
  match g.calls[claimant gen]? with
  | some ⟨request, _, .forward f⟩ => some (request.generation, f.approvalRequestId)
  | _ => none

private theorem claimed_of_view {gen : Generation} {g : Gateway}
    (h : claimView gen g = some (gen, some "a")) : Claimed gen (claimant gen) "a" g := by
  simp only [claimView] at h
  split at h
  · rename_i request n f hc
    obtain ⟨hgen, hid⟩ := Prod.mk.inj (Option.some.inj h)
    exact ⟨_, f, hc, hgen, rfl, hid⟩
  · cases h

/-- After its `claimRun`, the call has claimed. -/
theorem claimed_claimRun (gen : Generation) :
    ∃ g, IsRun (Gateway.step exampleRuntime exampleSha256) (.init 0)
        (trace (Gateway.step exampleRuntime exampleSha256) (.init 0) (claimRun gen)) g ∧
      Claimed gen (claimant gen) "a" g := by
  have hview : (exec (Gateway.step exampleRuntime exampleSha256) (.init 0)
      (claimRun gen)).map (claimView gen) = some (some (gen, some "a")) := by
    cases gen <;> decide +kernel
  obtain ⟨g, hg, hview⟩ := Option.map_eq_some_iff.mp hview
  exact ⟨g, isRun_trace _ _ _ hg, claimed_of_view hview⟩

end PetaCore
