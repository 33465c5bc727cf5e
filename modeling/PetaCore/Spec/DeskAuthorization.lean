import PetaCore.Core.DeskAuthorization
import PetaCore.ForStd.Run

/-!
# A Desk authorization flow yields one code

A callback checks that its flow is pending, creates the code after two awaits, and only then
completes the flow, whose status it does not look at again. So one code is created for a flow, and
it is the one of its redirect, as long as the callbacks of a flow do not overlap and the flow does
not expire before it is completed. A completed flow stays as it is in every run.

Key results:
- `step_completed`: no step changes a completed flow
- `Ok.step`: each step keeps every code with its callback or in the redirect of its flow
- `desk_flow_yields_one_code`: one code for each flow, in every run that meets the condition
- `overlapping_callbacks_create_two_codes`: two callbacks that overlap create two codes
-/

namespace PetaCore

open Run

/-- The code in the URL of a redirect. -/
def Redirect.code? : Redirect → Option String
  | success _ code _ _ => some code
  | error _ _ _ _ => none

namespace DeskState

variable {s : DeskState} {flow : DeskFlow}

/-! ## What the operations do to a flow -/

theorem expire_of_ne_pending {now : Nat} (h : flow.status ≠ .pending) : expire now flow = flow := by
  unfold expire
  rw [if_neg (fun hcond => h hcond.1)]

/-- A flow that is read is as it was, or has expired. -/
theorem expire_cases (now : Nat) (flow : DeskFlow) :
    expire now flow = flow ∨
      ((expire now flow).status = .expired ∧ (expire now flow).expiresAt ≤ now) := by
  unfold expire
  split
  · next h => exact .inr ⟨rfl, h.2⟩
  · exact .inl rfl

theorem get?_getFlow (s : DeskState) (flowId g : Nat) :
    (s.getFlow flowId).flows.get? g =
      if g = flowId then (s.flows.get? flowId).map (expire s.now) else s.flows.get? g := by
  cases hflow : s.flows.get? flowId with
  | none =>
    simp only [getFlow, hflow, Option.map_none]
    split
    · next hg => rw [hg, hflow]
    · rfl
  | some flow => simp only [getFlow, hflow, Table.get?_put hflow, Option.map_some]

@[simp] theorem callbacks_getFlow (s : DeskState) (flowId : Nat) :
    (s.getFlow flowId).callbacks = s.callbacks := by
  unfold getFlow
  cases s.flows.get? flowId <;> rfl

@[simp] theorem codes_getFlow (s : DeskState) (flowId : Nat) :
    (s.getFlow flowId).codes = s.codes := by
  unfold getFlow
  cases s.flows.get? flowId <;> rfl

@[simp] theorem now_getFlow (s : DeskState) (flowId : Nat) : (s.getFlow flowId).now = s.now := by
  unfold getFlow
  cases s.flows.get? flowId <;> rfl

/-- `s'` differs from `s` in the flows only, and a flow that is completed is in both. -/
structure FlowsOnly (s s' : DeskState) : Prop where
  callbacks : s'.callbacks = s.callbacks
  codes : s'.codes = s.codes
  now : s'.now = s.now
  completed : ∀ g flow, s.flows.get? g = some flow → flow.status = .completed →
    s'.flows.get? g = some flow

theorem FlowsOnly.trans {s s' s'' : DeskState} (h : FlowsOnly s s') (h' : FlowsOnly s' s'') :
    FlowsOnly s s'' :=
  ⟨h'.callbacks.trans h.callbacks, h'.codes.trans h.codes, h'.now.trans h.now,
    fun g flow hg hc => h'.completed g flow (h.completed g flow hg hc) hc⟩

theorem flowsOnly_getFlow (s : DeskState) (flowId : Nat) : FlowsOnly s (s.getFlow flowId) := by
  refine ⟨by simp, by simp, by simp, ?_⟩
  intro g flow hg hcompleted
  rw [get?_getFlow]
  split
  · next hgf =>
    subst hgf
    rw [hg, Option.map_some, expire_of_ne_pending (by simp [hcompleted])]
  · exact hg

variable {flowId : Nat}

/-- A flow that is pending after it has been read is put in another status. -/
theorem flowsOnly_put {flow flow' : DeskFlow}
    (hflow : (s.getFlow flowId).flows.get? flowId = some flow) (hpending : flow.status = .pending) :
    FlowsOnly s
      { s.getFlow flowId with flows := (s.getFlow flowId).flows.put flowId flow' } := by
  apply (flowsOnly_getFlow s flowId).trans
  refine ⟨rfl, rfl, rfl, ?_⟩
  intro g flow'' hg hcompleted
  rw [Table.get?_put hflow]
  split
  · next hgf =>
    subst hgf
    rw [hflow] at hg
    cases hg
    rw [hpending] at hcompleted
    cases hcompleted
  · exact hg

theorem flowsOnly_completeFlow (s : DeskState) (flowId : Nat) (redirect : Redirect) :
    FlowsOnly s (s.completeFlow flowId redirect) := by
  simp only [completeFlow]
  split
  · exact flowsOnly_getFlow s flowId
  · next flow hflow =>
    split
    · next hpending => exact flowsOnly_put hflow hpending
    · exact flowsOnly_getFlow s flowId

theorem flowsOnly_failFlow (s : DeskState) (flowId : Nat) (error errorDescription : String) :
    FlowsOnly s (s.failFlow flowId error errorDescription) := by
  simp only [failFlow]
  split
  · exact flowsOnly_getFlow s flowId
  · next flow hflow =>
    split
    · next hpending => exact flowsOnly_put hflow hpending
    · exact flowsOnly_getFlow s flowId

theorem get?_failFlow_of_ne (s : DeskState) {g : Nat} (error errorDescription : String)
    (h : g ≠ flowId) :
    (s.failFlow flowId error errorDescription).flows.get? g = s.flows.get? g := by
  have hread : (s.getFlow flowId).flows.get? g = s.flows.get? g := by rw [get?_getFlow, if_neg h]
  simp only [failFlow]
  split
  · exact hread
  · next flow hflow =>
    split
    · rw [Table.get?_put hflow, if_neg h]
      exact hread
    · exact hread

theorem get?_cleanupExpired (s : DeskState) (g : Nat) :
    s.cleanupExpired.flows.get? g =
      ((s.flows.get? g).filter fun flow => !isOld s.now flow).map (expire s.now) := by
  simp only [cleanupExpired, Table.get?_map, Table.get?_eraseIf]

theorem flowsOnly_cleanupExpired (s : DeskState) : FlowsOnly s s.cleanupExpired := by
  refine ⟨rfl, rfl, rfl, ?_⟩
  intro g flow hg hcompleted
  have hold : isOld s.now flow = false := by simp [isOld, hcompleted]
  rw [get?_cleanupExpired, hg, Option.filter_some, hold, Bool.not_false, if_pos rfl,
    Option.map_some, expire_of_ne_pending (by simp [hcompleted])]

theorem flowsOnly_createFlow (s : DeskState) (params : AuthorizationParams) (issuer : String) :
    FlowsOnly s (s.createFlow params issuer) := by
  apply (flowsOnly_cleanupExpired s).trans
  refine ⟨rfl, rfl, rfl, ?_⟩
  intro g flow hg _
  exact Table.get?_add_eq_some.mpr (.inr hg)

theorem flowsOnly_showPage (s : DeskState) (flowId : Option Nat) (params : AuthorizationParams)
    (issuer : String) : FlowsOnly s (s.showPage flowId params issuer) := by
  cases flowId with
  | none => exact flowsOnly_createFlow s params issuer
  | some flowId =>
    have hread := flowsOnly_getFlow s flowId
    simp only [showPage]
    split
    · exact hread.trans (flowsOnly_createFlow _ params issuer)
    · split
      · exact hread
      · exact hread.trans (flowsOnly_createFlow _ params issuer)

/-! ## Completed flows -/

theorem completed_callback {g : Nat} (hg : s.flows.get? g = some flow)
    (hcompleted : flow.status = .completed) (flowId : Nat) (userToken issuer publicUrl : String) :
    (s.callback flowId userToken issuer publicUrl).flows.get? g = some flow := by
  have hread := (flowsOnly_getFlow s flowId).completed g flow hg hcompleted
  simp only [callback]
  split
  · exact hread
  · split
    · exact hread
    · split
      · exact (flowsOnly_failFlow _ flowId _ _).completed g flow hread hcompleted
      · exact hread
    all_goals exact hread

theorem completed_clientFound (rt : UrlRuntime) {g : Nat} (hg : s.flows.get? g = some flow)
    (hcompleted : flow.status = .completed) (i : Nat) (c : DeskCallback) (userId : String)
    (client : Option OAuthClient) (code : String) :
    (s.clientFound rt i c userId client code).flows.get? g = some flow := by
  simp only [clientFound]
  split
  · exact (flowsOnly_failFlow s c.flowId _ _).completed g flow hg hcompleted
  · split
    all_goals exact hg

/-- A completed flow keeps its status and its redirect. -/
theorem step_completed {rt : UrlRuntime} {s s' : DeskState} {a : DeskAction}
    (hstep : s.step rt a = some s') {g : Nat} (hg : s.flows.get? g = some flow)
    (hcompleted : flow.status = .completed) : s'.flows.get? g = some flow := by
  have hfail : ∀ c : DeskCallback, ∀ i answer, (s.fail i c answer).flows.get? g = some flow := by
    intro c i answer
    exact (flowsOnly_failFlow s c.flowId answer.1 answer.2).completed g flow hg hcompleted
  cases a with
  | showPage flowId params issuer =>
    cases hstep
    exact (flowsOnly_showPage s flowId params issuer).completed g flow hg hcompleted
  | poll flowId =>
    cases hstep
    exact (flowsOnly_getFlow s flowId).completed g flow hg hcompleted
  | callback flowId userToken issuer publicUrl =>
    cases hstep
    exact completed_callback hg hcompleted flowId userToken issuer publicUrl
  | validated i userId =>
    obtain ⟨c, _, hstep⟩ := Option.bind_eq_some_iff.mp hstep
    split at hstep
    · cases hstep
      exact hg
    · cases hstep
      exact hfail c i _
    · cases hstep
  | clientFound i client code =>
    obtain ⟨c, _, hstep⟩ := Option.bind_eq_some_iff.mp hstep
    split at hstep
    · next userId _ =>
      cases hstep
      exact completed_clientFound rt hg hcompleted i c userId client code
    · cases hstep
  | clientFails i _ | createFails i _ =>
    obtain ⟨c, _, hstep⟩ := Option.bind_eq_some_iff.mp hstep
    split at hstep
    · cases hstep
      exact hfail c i _
    · cases hstep
  | created i =>
    obtain ⟨c, _, hstep⟩ := Option.bind_eq_some_iff.mp hstep
    split at hstep
    · cases hstep
      exact hg
    · cases hstep
  | complete i =>
    obtain ⟨c, _, hstep⟩ := Option.bind_eq_some_iff.mp hstep
    split at hstep
    · next redirect _ =>
      cases hstep
      exact (flowsOnly_completeFlow s c.flowId redirect).completed g flow hg hcompleted
    · cases hstep
  | tick time =>
    cases hstep
    exact hg

/-! ## The invariant -/

/-- A callback that has passed the check of its flow and has not answered. -/
def inProgress : DeskStage → Bool
  | .validating | .lookingUp _ | .creating _ | .granted _ => true
  | .answered _ => false

/-- The code is that of the redirect of its flow. -/
def Stored (s : DeskState) (flowId : Nat) (code : String) : Prop :=
  ∃ flow, s.flows.get? flowId = some flow ∧ flow.status = .completed ∧
    flow.redirect.bind Redirect.code? = some code

/-- The code has been created by a callback that has yet to complete the flow with it. -/
def Held (s : DeskState) (flowId : Nat) (code : String) : Prop :=
  ∃ i c redirect, s.callbacks.get? i = some c ∧ c.flowId = flowId ∧ c.stage = .granted redirect ∧
    redirect.code? = some code

structure Ok (s : DeskState) : Prop where
  unsettled : ∀ i c flow, s.callbacks.get? i = some c → inProgress c.stage = true →
    s.flows.get? c.flowId = some flow →
    flow.status = .pending ∨ (flow.status = .expired ∧ flow.expiresAt ≤ s.now)
  unique : ∀ i j c d, s.callbacks.get? i = some c → s.callbacks.get? j = some d →
    inProgress c.stage = true → inProgress d.stage = true → c.flowId = d.flowId → i = j
  codes : ∀ p ∈ s.codes, s.Held p.1 p.2.code ∨ s.Stored p.1 p.2.code
  nodup : (s.codes.map Prod.fst).Nodup
  answered : ∀ i c, s.callbacks.get? i = some c → c.stage = .answered .completed →
    ∃ flow, s.flows.get? c.flowId = some flow ∧ flow.status = .completed

theorem ok_init (now : Nat) : Ok (init now) := by
  constructor
  all_goals simp [init]

/-- The flows change, those of the callbacks in progress only by expiring. -/
theorem Ok.flows {s s' : DeskState} (h : Ok s) (hflows : FlowsOnly s s')
    (hback : ∀ g flow', s'.flows.get? g = some flow' →
      (∃ i c, s.callbacks.get? i = some c ∧ inProgress c.stage = true ∧ c.flowId = g) →
      flow'.status = .pending ∨ ∃ flow, s.flows.get? g = some flow ∧
        (flow' = flow ∨ flow' = expire s.now flow)) : Ok s' := by
  constructor
  case unsettled =>
    intro i c flow' hc hprogress hflow'
    rw [hflows.callbacks] at hc
    rw [hflows.now]
    rcases hback c.flowId flow' hflow' ⟨i, c, hc, hprogress, rfl⟩ with
      hpending | ⟨flow, hflow, rfl | rfl⟩
    · exact .inl hpending
    · exact h.unsettled i c flow' hc hprogress hflow
    · rcases expire_cases s.now flow with hsame | hexpired
      · rw [hsame]
        exact h.unsettled i c flow hc hprogress hflow
      · exact .inr hexpired
  case unique =>
    rw [hflows.callbacks]
    exact h.unique
  case codes =>
    intro p hp
    rw [hflows.codes] at hp
    rcases h.codes p hp with ⟨i, c, redirect, hc, hrest⟩ | ⟨flow, hflow, hcompleted, hcode⟩
    · exact .inl ⟨i, c, redirect, by rw [hflows.callbacks]; exact hc, hrest⟩
    · exact .inr ⟨flow, hflows.completed p.1 flow hflow hcompleted, hcompleted, hcode⟩
  case nodup =>
    rw [hflows.codes]
    exact h.nodup
  case answered =>
    intro i c hc hstage
    rw [hflows.callbacks] at hc
    obtain ⟨flow, hflow, hcompleted⟩ := h.answered i c hc hstage
    exact ⟨flow, hflows.completed c.flowId flow hflow hcompleted, hcompleted⟩

theorem Ok.getFlow (h : Ok s) (flowId : Nat) : Ok (s.getFlow flowId) := by
  apply h.flows (flowsOnly_getFlow s flowId)
  intro g flow' hg _
  rw [get?_getFlow] at hg
  split at hg
  · next hgf =>
    obtain ⟨flow, hflow, rfl⟩ := Option.map_eq_some_iff.mp hg
    exact .inr ⟨flow, hgf ▸ hflow, .inr rfl⟩
  · exact .inr ⟨flow', hg, .inl rfl⟩

theorem Ok.createFlow (h : Ok s) (params : AuthorizationParams) (issuer : String) :
    Ok (s.createFlow params issuer) := by
  apply h.flows (flowsOnly_createFlow s params issuer)
  intro g flow' hg _
  rcases Table.get?_add_eq_some.mp hg with ⟨_, rfl⟩ | hold
  · exact .inl rfl
  · rw [get?_cleanupExpired] at hold
    obtain ⟨flow, hflow, rfl⟩ := Option.map_eq_some_iff.mp hold
    exact .inr ⟨flow, (Option.filter_eq_some_iff.mp hflow).1, .inr rfl⟩

theorem Ok.showPage (h : Ok s) (flowId : Option Nat) (params : AuthorizationParams)
    (issuer : String) : Ok (s.showPage flowId params issuer) := by
  cases flowId with
  | none => exact h.createFlow params issuer
  | some flowId =>
    simp only [DeskState.showPage]
    split
    · exact (h.getFlow flowId).createFlow params issuer
    · split
      · exact h.getFlow flowId
      · exact (h.getFlow flowId).createFlow params issuer

/-- A flow that no callback in progress has is failed. -/
theorem Ok.failFlow (h : Ok s) (error errorDescription : String)
    (hfree : ∀ i c, s.callbacks.get? i = some c → inProgress c.stage = true → c.flowId ≠ flowId) :
    Ok (s.failFlow flowId error errorDescription) := by
  apply h.flows (flowsOnly_failFlow s flowId error errorDescription)
  rintro g flow' hg ⟨i, c, hc, hprogress, rfl⟩
  rw [get?_failFlow_of_ne s error errorDescription (hfree i c hc hprogress)] at hg
  exact .inr ⟨flow', hg, .inl rfl⟩

/-- A callback comes in. When it has passed the check, its flow is pending and no other callback of
    the flow is in progress. -/
theorem Ok.addCallback (h : Ok s) (flowId : Nat) (params : AuthorizationParams)
    (issuer publicUrl : String) (stage : DeskStage) (hprogress : inProgress stage = true →
      (∀ flow, s.flows.get? flowId = some flow → flow.status = .pending) ∧
      ∀ i c, s.callbacks.get? i = some c → inProgress c.stage = true → c.flowId ≠ flowId)
    (hanswered : stage = .answered .completed →
      ∃ flow, s.flows.get? flowId = some flow ∧ flow.status = .completed) :
    Ok (s.addCallback flowId params issuer publicUrl stage) := by
  have hcases : ∀ i c, (s.addCallback flowId params issuer publicUrl stage).callbacks.get? i =
      some c → (i = s.callbacks.next ∧ c = ⟨flowId, params, issuer, publicUrl, stage⟩) ∨
        s.callbacks.get? i = some c := by
    intro i c hc
    rcases Table.get?_add_eq_some.mp hc with ⟨hi, rfl⟩ | hold
    · exact .inl ⟨hi, rfl⟩
    · exact .inr hold
  constructor
  case unsettled =>
    intro i c flow hc hin hflow
    rcases hcases i c hc with ⟨_, rfl⟩ | hold
    · exact .inl ((hprogress hin).1 flow hflow)
    · exact h.unsettled i c flow hold hin hflow
  case unique =>
    intro i j c d hc hd hinc hind hflow
    rcases hcases i c hc with ⟨hi, rfl⟩ | hc
    · rcases hcases j d hd with ⟨hj, _⟩ | hd
      · omega
      · exact absurd hflow.symm ((hprogress hinc).2 j d hd hind)
    · rcases hcases j d hd with ⟨_, rfl⟩ | hd
      · exact absurd hflow ((hprogress hind).2 i c hc hinc)
      · exact h.unique i j c d hc hd hinc hind hflow
  case codes =>
    intro p hp
    rcases h.codes p hp with ⟨i, c, redirect, hc, hrest⟩ | hstored
    · exact .inl ⟨i, c, redirect, Table.get?_add_eq_some.mpr (.inr hc), hrest⟩
    · exact .inr hstored
  case nodup => exact h.nodup
  case answered =>
    intro i c hc hstage
    rcases hcases i c hc with ⟨_, rfl⟩ | hold
    · exact hanswered hstage
    · exact h.answered i c hold hstage

variable {c : DeskCallback} {i : Nat}

/-- A callback goes on that has not created a code. -/
theorem Ok.setStage (h : Ok s) (hc : s.callbacks.get? i = some c)
    (hprogress : inProgress c.stage = true) (hgranted : ∀ redirect, c.stage ≠ .granted redirect)
    {stage : DeskStage} (hanswered : stage ≠ .answered .completed) : Ok (s.setStage i c stage) := by
  have hget : ∀ j, (s.setStage i c stage).callbacks.get? j =
      if j = i then some { c with stage := stage } else s.callbacks.get? j :=
    fun j => Table.get?_put hc _ j
  -- a callback in progress was in progress before, with the same flow
  have hback : ∀ j d, (s.setStage i c stage).callbacks.get? j = some d →
      inProgress d.stage = true →
      ∃ d', s.callbacks.get? j = some d' ∧ inProgress d'.stage = true ∧ d'.flowId = d.flowId := by
    intro j d hd hin
    rw [hget] at hd
    split at hd
    · next hji =>
      cases hd
      exact ⟨c, hji ▸ hc, hprogress, rfl⟩
    · exact ⟨d, hd, hin, rfl⟩
  constructor
  case unsettled =>
    intro j d flow hd hin hflow
    obtain ⟨d', hd', hin', hflowId⟩ := hback j d hd hin
    rw [← hflowId] at hflow
    exact h.unsettled j d' flow hd' hin' hflow
  case unique =>
    intro j k d e hd he hind hine hflow
    obtain ⟨d', hd', hind', hdflow⟩ := hback j d hd hind
    obtain ⟨e', he', hine', heflow⟩ := hback k e he hine
    exact h.unique j k d' e' hd' he' hind' hine' (by rw [hdflow, heflow, hflow])
  case codes =>
    intro p hp
    rcases h.codes p hp with ⟨j, d, redirect, hd, hflow, hstage, hcode⟩ | hstored
    · have hji : j ≠ i := by
        rintro rfl
        rw [hc] at hd
        cases hd
        exact hgranted redirect hstage
      exact .inl ⟨j, d, redirect, by rw [hget, if_neg hji]; exact hd, hflow, hstage, hcode⟩
    · exact .inr hstored
  case nodup => exact h.nodup
  case answered =>
    intro j d hd hstage
    rw [hget] at hd
    split at hd
    · cases hd
      exact absurd hstage hanswered
    · exact h.answered j d hd hstage

theorem getFlow_setStage (s : DeskState) (flowId i : Nat) (c : DeskCallback) (stage : DeskStage) :
    (s.setStage i c stage).getFlow flowId = (s.getFlow flowId).setStage i c stage := by
  simp only [DeskState.getFlow, DeskState.setStage]
  cases s.flows.get? flowId <;> rfl

/-- What is done to a flow does not depend on the stages. -/
theorem failFlow_setStage (s : DeskState) (flowId : Nat) (error errorDescription : String)
    (i : Nat) (c : DeskCallback) (stage : DeskStage) :
    (s.setStage i c stage).failFlow flowId error errorDescription =
      (s.failFlow flowId error errorDescription).setStage i c stage := by
  simp only [DeskState.failFlow, getFlow_setStage]
  simp only [DeskState.setStage]
  split
  · rfl
  · split <;> rfl

/-- A callback fails its flow: it is no longer in progress then. -/
theorem Ok.fail (h : Ok s) (hc : s.callbacks.get? i = some c)
    (hprogress : inProgress c.stage = true) (hgranted : ∀ redirect, c.stage ≠ .granted redirect)
    (answer : String × String) : Ok (s.fail i c answer) := by
  have hanswered : Ok (s.setStage i c (.answered (.failed answer.1 answer.2))) :=
    h.setStage hc hprogress hgranted (by simp)
  have hcommutes : s.fail i c answer =
      (s.setStage i c (.answered (.failed answer.1 answer.2))).failFlow c.flowId answer.1
        answer.2 := (failFlow_setStage s c.flowId answer.1 answer.2 i c _).symm
  rw [hcommutes]
  apply hanswered.failFlow
  intro j d hd hin hflow
  have hd' := hd
  simp only [DeskState.setStage, Table.get?_put hc] at hd'
  split at hd'
  · cases hd'
    cases hin
  · next hji => exact hji (h.unique j i d c hd' hc hin hprogress hflow)

/-! ## Creating the code and completing the flow -/

theorem Ok.created {s : DeskState} (h : Ok s)
    {row : AuthorizationCode} (hc : s.callbacks.get? i = some c)
    (hstage : c.stage = .creating row) :
    Ok ({ s with codes := s.codes ++ [(c.flowId, row)] }.setStage i c
      (.granted (OAuth.successRedirect c.params c.issuer row))) := by
  have hprogress : inProgress c.stage = true := by rw [hstage]; rfl
  -- no code of the flow has been created
  have hnew : ∀ p ∈ s.codes, p.1 ≠ c.flowId := by
    rintro p hp hflow
    rcases h.codes p hp with ⟨j, d, redirect, hd, hdflow, hdstage, _⟩ | ⟨flow, hget, hcompleted, _⟩
    · have hji : j = i := by
        apply h.unique j i d c hd hc (by rw [hdstage]; rfl) hprogress
        rw [hdflow, hflow]
      subst hji
      rw [hc] at hd
      cases hd
      rw [hstage] at hdstage
      cases hdstage
    · rw [hflow] at hget
      rcases h.unsettled i c flow hc hprogress hget with hpending | ⟨hexpired, _⟩
      · rw [hcompleted] at hpending
        cases hpending
      · rw [hcompleted] at hexpired
        cases hexpired
  have hgoes : Ok (s.setStage i c (.granted (OAuth.successRedirect c.params c.issuer row))) :=
    h.setStage hc hprogress (by simp [hstage]) (by simp)
  constructor
  case unsettled => exact hgoes.unsettled
  case unique => exact hgoes.unique
  case codes =>
    intro p hp
    rcases List.mem_append.mp hp with hold | hlast
    · exact hgoes.codes p hold
    · obtain rfl := List.mem_singleton.mp hlast
      refine .inl ⟨i, { c with stage := .granted (OAuth.successRedirect c.params c.issuer row) },
        OAuth.successRedirect c.params c.issuer row, ?_, rfl, rfl, rfl⟩
      simp [DeskState.setStage, Table.get?_put hc]
  case nodup =>
    show ((s.codes ++ [(c.flowId, row)]).map Prod.fst).Nodup
    rw [List.map_append, List.nodup_append]
    refine ⟨h.nodup, by simp, ?_⟩
    intro f hf g hg
    obtain ⟨p, hp, rfl⟩ := List.mem_map.mp hf
    obtain rfl : g = c.flowId := by simpa using hg
    exact hnew p hp
  case answered => exact hgoes.answered

/-- A pending flow that has not expired is completed. -/
theorem get?_completeFlow (hflow : s.flows.get? flowId = some flow)
    (hpending : flow.status = .pending) (htime : s.now < flow.expiresAt) (redirect : Redirect)
    (g : Nat) :
    (s.completeFlow flowId redirect).flows.get? g =
      if g = flowId then some { flow with status := .completed, redirect := some redirect }
      else s.flows.get? g := by
  have hread : (s.getFlow flowId).flows.get? flowId = some flow := by
    have hkept : expire s.now flow = flow := by
      unfold expire
      rw [if_neg (by omega)]
    rw [get?_getFlow, if_pos rfl, hflow, Option.map_some, hkept]
  simp only [completeFlow, hread, hpending, if_true, Table.get?_put hread]
  split
  · rfl
  · next hg => rw [get?_getFlow, if_neg hg]

theorem Ok.complete (h : Ok s) {redirect : Redirect}
    (hc : s.callbacks.get? i = some c) (hstage : c.stage = .granted redirect)
    (hflow : s.flows.get? c.flowId = some flow) (htime : s.now < flow.expiresAt) :
    Ok ((s.completeFlow c.flowId redirect).setStage i c (.answered .completed)) := by
  have hprogress : inProgress c.stage = true := by rw [hstage]; rfl
  have hpending : flow.status = .pending := by
    rcases h.unsettled i c flow hc hprogress hflow with hpending | ⟨_, hle⟩
    · exact hpending
    · omega
  have hflows := flowsOnly_completeFlow s c.flowId redirect
  have hgetflow := get?_completeFlow hflow hpending htime redirect
  have hget : ∀ j, ((s.completeFlow c.flowId redirect).setStage i c
      (.answered .completed)).callbacks.get? j =
        if j = i then some { c with stage := .answered .completed } else s.callbacks.get? j := by
    intro j
    simp only [DeskState.setStage, hflows.callbacks, Table.get?_put hc]
  -- the other callbacks in progress have other flows
  have hothers : ∀ j d, ((s.completeFlow c.flowId redirect).setStage i c
      (.answered .completed)).callbacks.get? j = some d → inProgress d.stage = true →
        s.callbacks.get? j = some d ∧ d.flowId ≠ c.flowId := by
    intro j d hd hin
    rw [hget] at hd
    split at hd
    · cases hd
      cases hin
    · next hji => exact ⟨hd, fun hsame => hji (h.unique j i d c hd hc hin hprogress hsame)⟩
  constructor
  case unsettled =>
    intro j d flow' hd hin hflow'
    obtain ⟨hd, hne⟩ := hothers j d hd hin
    have hkept : (s.completeFlow c.flowId redirect).flows.get? d.flowId = some flow' := hflow'
    rw [hgetflow, if_neg hne] at hkept
    show flow'.status = .pending ∨ (flow'.status = .expired ∧
      flow'.expiresAt ≤ (s.completeFlow c.flowId redirect).now)
    rw [hflows.now]
    exact h.unsettled j d flow' hd hin hkept
  case unique =>
    intro j k d e hd he hind hine hsame
    exact h.unique j k d e (hothers j d hd hind).1 (hothers k e he hine).1 hind hine hsame
  case codes =>
    intro p hp
    have hp' : p ∈ s.codes := by
      rw [← hflows.codes]
      exact hp
    rcases h.codes p hp' with ⟨j, d, redirect', hd, hdflow, hdstage, hcode⟩ |
      ⟨flow', hflow', hcompleted, hcode⟩
    · by_cases hji : j = i
      · subst hji
        rw [hc] at hd
        cases hd
        rw [hstage] at hdstage
        cases hdstage
        refine .inr ⟨{ flow with status := .completed, redirect := some redirect }, ?_, rfl, hcode⟩
        show (s.completeFlow c.flowId redirect).flows.get? p.1 = _
        rw [hgetflow, if_pos hdflow.symm]
      · exact .inl ⟨j, d, redirect', by rw [hget, if_neg hji]; exact hd, hdflow, hdstage, hcode⟩
    · exact .inr ⟨flow', hflows.completed p.1 flow' hflow' hcompleted, hcompleted, hcode⟩
  case nodup =>
    show ((s.completeFlow c.flowId redirect).codes.map Prod.fst).Nodup
    rw [hflows.codes]
    exact h.nodup
  case answered =>
    intro j d hd hdstage
    rw [hget] at hd
    split at hd
    · cases hd
      exact ⟨_, by show (s.completeFlow c.flowId redirect).flows.get? c.flowId = _
                   rw [hgetflow, if_pos rfl], rfl⟩
    · obtain ⟨flow', hflow', hcompleted⟩ := h.answered j d hd hdstage
      exact ⟨flow', hflows.completed d.flowId flow' hflow' hcompleted, hcompleted⟩

/-! ## The steps -/

/-- The condition on a step. A callback passes the check of its flow only when no other callback of
    the flow is in progress, and completes it before its time. -/
def inOrder (s : DeskState) : DeskAction → Bool
  | .callback flowId _ _ _ =>
    ((s.getFlow flowId).flows.get? flowId).all (fun flow => flow.status ≠ .pending) ||
      !s.callbacks.any fun _ c => inProgress c.stage && c.flowId = flowId
  | .complete i =>
    (s.callbacks.get? i).all fun c =>
      (s.flows.get? c.flowId).any fun flow => s.now < flow.expiresAt
  | _ => true

theorem Ok.callback (h : Ok s) {userToken issuer publicUrl : String}
    (horder : s.inOrder (.callback flowId userToken issuer publicUrl) = true) :
    Ok (s.callback flowId userToken issuer publicUrl) := by
  have hread := h.getFlow flowId
  simp only [DeskState.callback]
  split
  · exact hread.addCallback flowId _ issuer publicUrl _ (by simp [inProgress]) (by simp)
  · next flow hflow =>
    split
    · next hcompleted =>
      exact hread.addCallback flowId _ issuer publicUrl _ (by simp [inProgress])
        (fun _ => ⟨flow, hflow, hcompleted⟩)
    · next hpending =>
      have hfree : ∀ i c, s.callbacks.get? i = some c → inProgress c.stage = true →
          c.flowId ≠ flowId := by
        intro i c hc hin hsame
        simp only [inOrder, hflow, hpending, Option.all_some, ne_eq, not_true_eq_false,
          decide_false, Bool.false_or, Bool.not_eq_true'] at horder
        have hany : (s.callbacks.any fun _ c => inProgress c.stage && c.flowId = flowId) = true :=
          Table.any_eq_true.mpr ⟨i, c, hc, by simp [hin, hsame]⟩
        simp [horder] at hany
      have hfree' : ∀ i c, (s.getFlow flowId).callbacks.get? i = some c →
          inProgress c.stage = true → c.flowId ≠ flowId := by
        rw [callbacks_getFlow]
        exact hfree
      split
      · exact (hread.failFlow _ _ hfree').addCallback flowId _ issuer publicUrl _
          (by simp [inProgress]) (by simp)
      · apply hread.addCallback flowId _ issuer publicUrl _ _ (by simp)
        intro _
        refine ⟨?_, hfree'⟩
        intro flow' hflow'
        rw [hflow] at hflow'
        cases hflow'
        exact hpending
    all_goals exact hread.addCallback flowId _ issuer publicUrl _ (by simp [inProgress]) (by simp)

theorem Ok.clientFound (rt : UrlRuntime) (h : Ok s) {userId : String}
    (hc : s.callbacks.get? i = some c) (hstage : c.stage = .lookingUp userId)
    (client : Option OAuthClient) (code : String) :
    Ok (s.clientFound rt i c userId client code) := by
  have hprogress : inProgress c.stage = true := by rw [hstage]; rfl
  simp only [DeskState.clientFound]
  split
  · exact h.fail hc hprogress (by simp [hstage]) _
  · split
    all_goals exact h.setStage hc hprogress (by simp [hstage]) (by simp)

theorem Ok.step {rt : UrlRuntime} {s s' : DeskState} {a : DeskAction} (h : Ok s)
    (hstep : s.step rt a = some s') (horder : s.inOrder a = true) : Ok s' := by
  cases a with
  | showPage flowId params issuer =>
    cases hstep
    exact h.showPage flowId params issuer
  | poll flowId =>
    cases hstep
    exact h.getFlow flowId
  | callback flowId userToken issuer publicUrl =>
    cases hstep
    exact h.callback horder
  | validated i userId =>
    obtain ⟨c, hc, hstep⟩ := Option.bind_eq_some_iff.mp hstep
    split at hstep
    · next hstage _ =>
      cases hstep
      exact h.setStage hc (by rw [hstage]; rfl) (by simp [hstage]) (by simp)
    · next hstage _ =>
      cases hstep
      exact h.fail hc (by rw [hstage]; rfl) (by simp [hstage]) _
    · cases hstep
  | clientFound i client code =>
    obtain ⟨c, hc, hstep⟩ := Option.bind_eq_some_iff.mp hstep
    split at hstep
    · next userId hstage =>
      cases hstep
      exact h.clientFound rt hc hstage client code
    · cases hstep
  | clientFails _ _ | createFails _ _ =>
    obtain ⟨c, hc, hstep⟩ := Option.bind_eq_some_iff.mp hstep
    split at hstep
    · next hstage =>
      cases hstep
      exact h.fail hc (by rw [hstage]; rfl) (by simp [hstage]) _
    · cases hstep
  | created i =>
    obtain ⟨c, hc, hstep⟩ := Option.bind_eq_some_iff.mp hstep
    split at hstep
    · next hstage =>
      cases hstep
      exact h.created hc hstage
    · cases hstep
  | complete i =>
    obtain ⟨c, hc, hstep⟩ := Option.bind_eq_some_iff.mp hstep
    split at hstep
    · next redirect hstage =>
      cases hstep
      simp only [inOrder, hc, Option.all_some] at horder
      obtain ⟨flow, hflow, htime⟩ := (Option.any_eq_true _ _).mp horder
      exact h.complete hc hstage hflow (by simpa using htime)
    · cases hstep
  | tick time =>
    cases hstep
    refine ⟨?_, h.unique, h.codes, h.nodup, h.answered⟩
    intro i c flow hc hin hflow
    rcases h.unsettled i c flow hc hin hflow with hpending | ⟨hexpired, hle⟩
    · exact .inl hpending
    · exact .inr ⟨hexpired, Nat.le_add_right_of_le hle⟩

/-! ## Runs -/

theorem ok_of_isRun {rt : UrlRuntime} {now : Nat} {trs : List (Transition DeskState DeskAction)}
    (hrun : IsRun (step rt) (init now) trs s) (horder : ∀ tr ∈ trs, tr.pre.inOrder tr.act = true) :
    Ok s := by
  apply hrun.history_of (G := fun tr => tr.pre.inOrder tr.act = true) (P := fun _ s => Ok s)
  · exact ok_init now
  · intro _ _ _ _ _ hok hstep hin
    exact hok.step hstep hin
  · exact horder

/-- A Desk authorization flow yields one code. At most one code is created for it, and it is that of
    the stored redirect (or will be, when its callback goes on); a callback answers that the flow is
    completed only if it is; and a completed flow stays as it is. -/
theorem desk_flow_yields_one_code {rt : UrlRuntime} {now : Nat} {s : DeskState}
    {trs : List (Transition DeskState DeskAction)} (hrun : IsRun (step rt) (init now) trs s)
    (horder : ∀ tr ∈ trs, tr.pre.inOrder tr.act = true) :
    (s.codes.map Prod.fst).Nodup ∧
      (∀ p ∈ s.codes, s.Held p.1 p.2.code ∨ s.Stored p.1 p.2.code) ∧
      (∀ i c, s.callbacks.get? i = some c → c.stage = .answered .completed →
        ∃ flow, s.flows.get? c.flowId = some flow ∧ flow.status = .completed) ∧
      (∀ tr ∈ trs, ∀ flowId flow, tr.pre.flows.get? flowId = some flow →
        flow.status = .completed → tr.post.flows.get? flowId = some flow) := by
  have hok := ok_of_isRun hrun horder
  refine ⟨hok.nodup, hok.codes, hok.answered, ?_⟩
  intro tr htr flowId flow hflow hcompleted
  exact step_completed (hrun.step_of_mem htr) hflow hcompleted

def deskParams : AuthorizationParams :=
  ⟨"client", "https://app.example/callback", none, some "xyz", some "challenge", some "S256", none⟩

def deskClient : OAuthClient :=
  ⟨"client", "https://gateway.example", none, ["https://app.example/callback"], ["mcp:tools"],
    ["authorization_code"], ["code"], "none"⟩

/-- No redirect URI of a loopback address. -/
def deskRuntime : UrlRuntime := ⟨fun _ => none, fun _ => none⟩

/-- A callback of the first flow from its token to its code. -/
def grantActions (i : Nat) (code : String) : List DeskAction :=
  [.validated i (some "alice"), .clientFound i (some deskClient) code, .created i]

/-- A flow is completed, and a later callback finds it completed. -/
def deskActions : List DeskAction :=
  [.showPage none deskParams "https://gateway.example",
    .callback 0 "token" "https://gateway.example" "https://gateway.example/mcp"] ++
  grantActions 0 "c0de" ++
  [.poll 0, .complete 0, .tick 400000,
    .callback 0 "token" "https://gateway.example" "https://gateway.example/mcp", .poll 0]

theorem desk_flow_yields_one_code_deskActions :
    ∃ s, exec (step deskRuntime) (init 1000) deskActions = some s ∧
      (s.codes.map Prod.fst).Nodup ∧
      ∀ p ∈ s.codes, s.Held p.1 p.2.code ∨ s.Stored p.1 p.2.code := by
  have hrun : IsRun (step deskRuntime) (init 1000)
      (trace (step deskRuntime) (init 1000) deskActions)
      ((exec (step deskRuntime) (init 1000) deskActions).get (by decide)) :=
    isRun_trace _ _ _ (by simp)
  obtain ⟨hnodup, hcodes, _, _⟩ := desk_flow_yields_one_code hrun (by decide)
  exact ⟨_, by simp, hnodup, hcodes⟩

/-- Two callbacks of a flow pass the check before one of them completes it. -/
def overlappingActions : List DeskAction :=
  [.showPage none deskParams "https://gateway.example",
    .callback 0 "token" "https://gateway.example" "https://gateway.example/mcp",
    .callback 0 "token" "https://gateway.example" "https://gateway.example/mcp"] ++
  grantActions 0 "first" ++ grantActions 1 "second" ++ [.complete 0, .complete 1]

theorem overlapping_callbacks_create_two_codes :
    ¬ ∀ (rt : UrlRuntime) (now : Nat) (s : DeskState)
      (trs : List (Transition DeskState DeskAction)),
      IsRun (step rt) (init now) trs s →
      (s.codes.map Prod.fst).Nodup ∧
        (∀ p ∈ s.codes, s.Held p.1 p.2.code ∨ s.Stored p.1 p.2.code) ∧
        (∀ i c, s.callbacks.get? i = some c → c.stage = .answered .completed →
          ∃ flow, s.flows.get? c.flowId = some flow ∧ flow.status = .completed) ∧
        (∀ tr ∈ trs, ∀ flowId flow, tr.pre.flows.get? flowId = some flow →
          flow.status = .completed → tr.post.flows.get? flowId = some flow) := by
  intro h
  have hrun : IsRun (step deskRuntime) (init 0)
      (trace (step deskRuntime) (init 0) overlappingActions)
      ((exec (step deskRuntime) (init 0) overlappingActions).get (by decide)) :=
    isRun_trace _ _ _ (by simp)
  have hnodup := (h deskRuntime 0 _ _ hrun).1
  revert hnodup
  decide

end DeskState

end PetaCore
