import PetaCore.Spec.DangerLevel
import PetaCore.Spec.PolicyBinding

/-!
# From the configured danger level to the approval

Runs in which administrators and users change configuration, permissions and preferences
while tool calls are made. Where no policy rule matches, the danger level that a call was
resolved with decides whether it needs approval.

## Key results

- `configured_level_reaches_user`: in runs that keep the stored and the configured level of a
  tool together, the user's calls are decided with the configured level, and with `Approval`
  they are not forwarded without a claimed approval
- `stored_level_shadows_approval`: a submission that says nothing about danger levels keeps
  the administrator's later `Approval` from reaching the user
-/

namespace PetaCore

open Run

/-! ## The parts of a run -/

abbrev PlatformTransition := Transition Platform PlatformAction

def PlatformAction.gateway? : PlatformAction → Option GatewayAction
  | .capability _ => none
  | .gateway a => some a

/-- A transition as the gateway sees it. -/
def PlatformTransition.gateway? (tr : PlatformTransition) : Option GatewayTransition :=
  tr.project (·.gateway) (·.gateway?)

variable {sha256 : String → String} {rt : DslRuntime}

/-- A step of the platform, taken apart. -/
theorem Platform.step_cases {p p' : Platform}
    {a : PlatformAction} (h : p.step rt sha256 a = some p') :
    (∃ b s, a = .capability b ∧ p.capabilities.step b = some s ∧
      p' = { p with capabilities := s }) ∨
    (∃ b g, a = .gateway b ∧ p.usesDangerLevel b = true ∧
      p.gateway.step rt sha256 b = some g ∧ p' = { p with gateway := g }) := by
  cases a with
  | capability b =>
    obtain ⟨s, hs, h⟩ := Option.bind_eq_some_iff.mp h
    exact .inl ⟨b, s, rfl, hs, (Option.some.inj h).symm⟩
  | gateway b =>
    simp only [Platform.step] at h
    split at h
    · rename_i hlevel
      obtain ⟨g, hg, h⟩ := Option.bind_eq_some_iff.mp h
      exact .inr ⟨b, g, rfl, hlevel, hg, (Option.some.inj h).symm⟩
    · cases h

variable {trs : List PlatformTransition}

/-- The gateway's part of a run is a run of the gateway. -/
theorem gateway_isRun {p₀ p : Platform} (h : IsRun (Platform.step rt sha256) p₀ trs p) :
    IsRun (Gateway.step rt sha256) p₀.gateway (trs.filterMap PlatformTransition.gateway?) p.gateway := by
  apply h.project
  intro s a s' hstep
  cases Platform.step_cases hstep with
  | inl hcap =>
    obtain ⟨b, t, rfl, _, rfl⟩ := hcap
    rfl
  | inr hgw =>
    obtain ⟨b, g, rfl, _, hg, rfl⟩ := hgw
    exact hg

/-! ## Decisions and the level they rest on -/

/-- The route and the policy decision of a call, once it has one. -/
def CallPc.result? (pc : CallPc) : Option (Route × PolicyEvaluateResult) :=
  match pc.ask? with
  | some ask => some (ask.route, ask.result)
  | none => pc.forward?.map fun f => (f.route, f.result)

theorem CallPc.result?_of_ask? {pc : CallPc} {ask : Ask} (h : pc.ask? = some ask) :
    pc.result? = some (ask.route, ask.result) := by
  simp only [CallPc.result?, h]

theorem CallPc.result?_of_forward? {pc : CallPc} {f : Forward} (h : pc.forward? = some f) :
    pc.result? = some (f.route, f.result) := by
  simp only [CallPc.result?, CallPc.ask?_of_forward? h, h, Option.map_some]

/-- A call keeps its decision, or takes the one its evaluation has come to. -/
theorem CallStep.decides {s : ApprovalState}
    {p : PolicyState} {c c' : ToolCall} {effect : CallEffect}
    (h : CallStep rt sha256 s p c effect c') {route : Route} {result : PolicyEvaluateResult}
    (hres' : c'.pc.result? = some (route, result)) :
    c.pc.result? = some (route, result) ∨ ∃ e ev, c.pc = .evaluate route e ∧
      p.evaluations[e]? = some ev ∧ ev.result rt = some result := by
  cases hask' : c'.pc.ask? with
  | some ask =>
    rw [CallPc.result?_of_ask? hask'] at hres'
    obtain ⟨rfl, rfl⟩ := Prod.mk.inj (Option.some.inj hres')
    cases h.asks hask' with
    | inl hask => exact .inl (CallPc.result?_of_ask? hask)
    | inr hev =>
      obtain ⟨route, e, ev, result, hpc, hev, hres, rfl⟩ := hev
      exact .inr ⟨e, ev, hpc, hev, hres⟩
  | none =>
    simp only [CallPc.result?, hask', Option.map_eq_some_iff, Prod.mk.injEq] at hres'
    obtain ⟨f, hf', rfl, rfl⟩ := hres'
    -- the call forwards what it forwarded before, or has just been allowed to
    have hkept : ∀ f', c.pc.forward? = some f' → f' = f →
        c.pc.result? = some (f.route, f.result) := by
      intro f' hf heq
      rw [CallPc.result?_of_forward? hf, heq]
    cases h with
    | stop _ _ hpc | found _ _ _ _ _ hpc =>
      cases hpc with
      | inl hpc | inr hpc => subst hpc; cases hf'
    | allowed route e ev result hpc hev hres hdec =>
      cases hf'
      exact .inr ⟨e, ev, hpc, hev, hres⟩
    | count ask pc hask hpc =>
      cases hpc with
      | inl hpc => subst hpc; cases hf'
      | inr hpc =>
        obtain ⟨since, rfl⟩ := hpc
        cases hf'
    | claimed ask id row rows hpc hrows =>
      cases hf'
      left
      rw [hpc]
      rfl
    | send f' hpc =>
      left
      refine hkept f' ?_ (Option.some.inj hf')
      rw [hpc]
      rfl
    | advance f' pc hpc hf hrun => exact .inl (hkept f' hpc (Option.some.inj (hf.symm.trans hf')))
    | touch f' id hpc hid => exact .inl (hkept f' hpc (Option.some.inj (hpc.symm.trans hf')))
    | settle f' id b n pc hpc hid hrun hb hpc' =>
      rcases hpc' with rfl | rfl | ⟨hf, _⟩
      · cases hf'
      · cases hf'
      · exact .inl (hkept f' hpc (Option.some.inj (hf.symm.trans hf')))
    | _ => cases hf'

/-- Without a matching rule the danger level decides. -/
theorem Evaluation.result_fallback {ev : Evaluation}
    {result : PolicyEvaluateResult} (h : ev.result rt = some result)
    (hrule : result.matchedRuleId = none) :
    result = fallbackToDangerLevel ev.params.dangerLevel := by
  simp only [Evaluation.result] at h
  split at h
  · cases h
  · cases h
    simp only [evaluatePolicies] at hrule ⊢
    split at hrule
    · cases hrule
    · rfl

/-- Call `i` is resolved to this route, with this danger level. -/
def Resolves (i : Nat) (c : ToolCall) (route : Route) (level : DangerLevel)
    (tr : PlatformTransition) : Prop :=
  tr.act = .gateway (.call i (.resolve route level)) ∧ tr.pre.gateway.calls[i]? = some c

/-- The decision of call `i` rests on a level that an earlier transition resolved it with. -/
def RestsOn (trs : List PlatformTransition) (i : Nat) (c : ToolCall) (route : Route)
    (level : DangerLevel) : Prop :=
  ∃ tr ∈ trs, ∃ c₀, Resolves i c₀ route level tr ∧ c₀.request = c.request

theorem RestsOn.mono {i : Nat} {c c' : ToolCall} {route : Route}
    {level : DangerLevel} (h : RestsOn trs i c route level) (hreq : c'.request = c.request)
    (tr : PlatformTransition) : RestsOn (trs ++ [tr]) i c' route level := by
  obtain ⟨tr', htr', c₀, hres, hc₀⟩ := h
  exact ⟨tr', List.mem_append_left _ htr', c₀, hres, hc₀.trans hreq.symm⟩

/-- What holds after the transitions `trs`: evaluations and decisions rest on a level. -/
structure DecidedOk (trs : List PlatformTransition) (p : Platform) : Prop where
  evaluating : ∀ (i : Nat) c route e, p.gateway.calls[i]? = some c → c.pc = .evaluate route e →
    ∃ ev, p.gateway.policy.evaluations[e]? = some ev ∧
      RestsOn trs i c route ev.params.dangerLevel
  decided : ∀ (i : Nat) c route result, p.gateway.calls[i]? = some c →
    c.pc.result? = some (route, result) →
    ∃ level, (result.matchedRuleId = none → result = fallbackToDangerLevel level) ∧
      RestsOn trs i c route level

section

variable {rt : DslRuntime} {sha256 : String → String} {trs : List PlatformTransition}
  {p : Platform} {a : GatewayAction} {g : Gateway}

theorem CallStep.request {s : ApprovalState} {q : PolicyState} {c c' : ToolCall}
    {effect : CallEffect} (h : CallStep rt sha256 s q c effect c') : c'.request = c.request := by
  cases h <;> rfl

theorem DecidedOk.init (clock : Timestamp) : DecidedOk [] (.init clock) where
  evaluating := fun _ _ _ _ h => by cases h
  decided := fun _ _ _ _ h => by cases h

/-- A call that takes no part in a step of the gateway keeps what it rests on. -/
theorem DecidedOk.frame (h : DecidedOk trs p) (hstep : p.gateway.step rt sha256 a = some g)
    (tr : PlatformTransition) {i : Nat} {c : ToolCall} (hc : p.gateway.calls[i]? = some c) :
    (∀ route e, c.pc = .evaluate route e → ∃ ev, g.policy.evaluations[e]? = some ev ∧
      RestsOn (trs ++ [tr]) i c route ev.params.dangerLevel) ∧
    ∀ route result, c.pc.result? = some (route, result) →
      ∃ level, (result.matchedRuleId = none → result = fallbackToDangerLevel level) ∧
        RestsOn (trs ++ [tr]) i c route level := by
  constructor
  · intro route e hpc
    obtain ⟨ev, hev, hrests⟩ := h.evaluating i c route e hc hpc
    cases (Gateway.step_cases hstep).policyStep with
    | inl hsame =>
      rw [hsame]
      exact ⟨ev, hev, hrests.mono rfl tr⟩
    | inr hpolicy =>
      obtain ⟨ev', hev', hparams⟩ := hpolicy.evaluations hev
      rw [← hparams] at hrests
      exact ⟨ev', hev', hrests.mono rfl tr⟩
  · intro route result hres
    obtain ⟨level, hfallback, hrests⟩ := h.decided i c route result hc hres
    exact ⟨level, hfallback, hrests.mono rfl tr⟩

/-- The call that acts in a step of the gateway. -/
theorem DecidedOk.acting (h : DecidedOk trs p) {i : Nat} {b : CallAction}
    (hstep : p.gateway.step rt sha256 (.call i b) = some g) {tr : PlatformTransition}
    (hact : tr.act = .gateway (.call i b)) (hpre : tr.pre = p) {c' : ToolCall}
    (hc' : g.calls[i]? = some c') :
    (∀ route e, c'.pc = .evaluate route e → ∃ ev, g.policy.evaluations[e]? = some ev ∧
      RestsOn (trs ++ [tr]) i c' route ev.params.dangerLevel) ∧
    ∀ route result, c'.pc.result? = some (route, result) →
      ∃ level, (result.matchedRuleId = none → result = fallbackToDangerLevel level) ∧
        RestsOn (trs ++ [tr]) i c' route level := by
  obtain ⟨c, effect, d, g₁, hc, hcall, happ, hg⟩ := Gateway.step_call hstep
  have hlt : i < p.gateway.calls.length := (List.getElem?_eq_some_iff.mp hc).1
  have hd : c' = d := by
    rw [hg] at hc'
    simp only [List.getElem?_set_self hlt, Option.some.injEq] at hc'
    exact hc'.symm
  subst hd
  have hcs := ToolCall.step_callStep hcall
  have hold := h.frame hstep tr hc
  constructor
  · intro route e hpc'
    cases hcs.evaluates hpc' with
    | inl hsame =>
      subst hsame
      exact hold.1 route e hpc'
    | inr hstart =>
      -- the evaluation was started by this step, with the level it was resolved with
      obtain ⟨rfl, params, _, rfl⟩ := hstart
      obtain ⟨route', rfl, hc''⟩ := ToolCall.step_evaluate hcall
      have hpc'' : c'.pc = .evaluate route' p.gateway.policy.evaluations.length := by rw [hc'']
      obtain ⟨rfl, _⟩ := CallPc.evaluate.inj (hpc''.symm.trans hpc')
      simp only [Gateway.apply, Option.bind_eq_bind, Option.bind_eq_some_iff] at happ
      obtain ⟨q, hq, hg₁⟩ := happ
      cases hg₁
      simp only [PolicyState.step, Option.some.injEq] at hq
      refine ⟨p.gateway.policy.startEvaluation p.gateway.approvals.clock params, ?_, ?_⟩
      · rw [hg, ← hq]
        simp
      · have hparams : (p.gateway.policy.startEvaluation p.gateway.approvals.clock params).params =
            params := by
          cases p.gateway.policy.startEvaluation_cases p.gateway.approvals.clock params with
          | inl hmiss =>
            obtain ⟨_, _, heq⟩ := hmiss
            rw [heq]
          | inr hhit =>
            obtain ⟨_, heq, _⟩ := hhit
            rw [heq]
        rw [hparams]
        refine ⟨tr, by simp, c, ⟨hact, ?_⟩, ?_⟩
        · rw [hpre]
          exact hc
        · exact hcs.request.symm
  · intro route result hres'
    cases hcs.decides hres' with
    | inl hres =>
      obtain ⟨level, hfallback, hrests⟩ := h.decided i c route result hc hres
      exact ⟨level, hfallback, hrests.mono hcs.request tr⟩
    | inr hdecided =>
      obtain ⟨e, ev, hpc, hev, hresult⟩ := hdecided
      obtain ⟨ev', hev', hrests⟩ := h.evaluating i c route e hc hpc
      obtain rfl := Option.some.inj (hev'.symm.trans hev)
      exact ⟨ev'.params.dangerLevel, Evaluation.result_fallback hresult,
        hrests.mono hcs.request tr⟩

/-- One step of the gateway. -/
theorem DecidedOk.gateway (h : DecidedOk trs p) (hstep : p.gateway.step rt sha256 a = some g)
    {tr : PlatformTransition} (hact : tr.act = .gateway a) (hpre : tr.pre = p) :
    DecidedOk (trs ++ [tr]) { p with gateway := g } := by
  have hcalls : ∀ (i : Nat) c, g.calls[i]? = some c → c.pc = .resolve ∨
      ((∀ route e, c.pc = .evaluate route e → ∃ ev, g.policy.evaluations[e]? = some ev ∧
        RestsOn (trs ++ [tr]) i c route ev.params.dangerLevel) ∧
      ∀ route result, c.pc.result? = some (route, result) →
        ∃ level, (result.matchedRuleId = none → result = fallbackToDangerLevel level) ∧
          RestsOn (trs ++ [tr]) i c route level) := by
    intro i c hc
    by_cases hcall : ∃ b, a = .call i b
    · obtain ⟨b, rfl⟩ := hcall
      exact .inr (h.acting hstep hact hpre hc)
    · -- any other call is as it was, or has just been started
      have hkept : p.gateway.calls[i]? = some c ∨ c.pc = .resolve := by
        cases Gateway.step_cases hstep with
        | background | sweep | policy => exact .inl hc
        | start request =>
          simp only [List.getElem?_append] at hc
          split at hc
          · exact .inl hc
          · have hmem := List.mem_of_getElem? hc
            obtain rfl : c = ⟨request, 0, .resolve⟩ := by simpa using hmem
            exact .inr rfl
        | call j b d d' effect g₁ hd hcs happ =>
          have hne : j ≠ i := by
            intro heq
            exact hcall ⟨b, by rw [heq]⟩
          rw [List.getElem?_set_ne hne] at hc
          exact .inl hc
      cases hkept with
      | inl hold => exact .inr (h.frame hstep tr hold)
      | inr hnew => exact .inl hnew
  constructor
  · intro i c route e hc hpc
    cases hcalls i c hc with
    | inl hnew => cases hnew.symm.trans hpc
    | inr hok => exact hok.1 route e hpc
  · intro i c route result hc hres
    cases hcalls i c hc with
    | inl hnew =>
      simp only [CallPc.result?, hnew] at hres
      cases hres
    | inr hok => exact hok.2 route result hres

theorem decidedOk {clock : Timestamp} (h : IsRun (Platform.step rt sha256) (.init clock) trs p) :
    DecidedOk trs p := by
  apply IsRun.history (P := DecidedOk) (DecidedOk.init clock) ?_ h
  intro trs p a p' _ hok hstep
  cases Platform.step_cases hstep with
  | inl hcap =>
    obtain ⟨b, s, rfl, _, rfl⟩ := hcap
    constructor
    · intro i c route e hc hpc
      obtain ⟨ev, hev, hrests⟩ := hok.evaluating i c route e hc hpc
      exact ⟨ev, hev, hrests.mono rfl _⟩
    · intro i c route result hc hres
      obtain ⟨level, hfallback, hrests⟩ := hok.decided i c route result hc hres
      exact ⟨level, hfallback, hrests.mono rfl _⟩
  | inr hgw =>
    obtain ⟨b, g, rfl, _, hg, rfl⟩ := hgw
    exact hok.gateway hg rfl rfl

end

/-! ## The user's calls -/

/-- A step of administrators or users keeps the stored and the configured level of the tool
    together, and is no submission of a level for it. -/
def TogetherStep (userId : UserId) (route : Route) (tr : PlatformTransition) : Prop :=
  ∀ a, tr.act = .capability a → a.NoLevel userId route.serverId route.toolName ∧
    CapabilityState.KeepsLevel userId route.serverId route.toolName tr.pre.capabilities a

theorem levelOk {clock : Timestamp} {p : Platform}
    (h : IsRun (Platform.step rt sha256) (.init clock) trs p) {userId : UserId} {route : Route}
    (hrun : ∀ tr ∈ trs, TogetherStep userId route tr) :
    CapabilityState.LevelOk userId route.serverId route.toolName p.capabilities := by
  apply IsRun.history_of (G := TogetherStep userId route)
    (P := fun _ p =>
      CapabilityState.LevelOk userId route.serverId route.toolName p.capabilities)
    CapabilityState.LevelOk.init ?_ h hrun
  intro _ p a p' _ hok hstep htogether
  cases Platform.step_cases hstep with
  | inl hcap =>
    obtain ⟨b, s, rfl, hs, rfl⟩ := hcap
    obtain ⟨hno, hkeeps⟩ := htogether b rfl
    exact hok.step hno hkeeps hs
  | inr hgw =>
    obtain ⟨b, g, rfl, _, _, rfl⟩ := hgw
    exact hok

/-- The level that a call of the user is resolved with is the one configured at that time. -/
def UsesConfigured (userId : UserId) (route : Route) (tr : PlatformTransition) : Prop :=
  ∀ i c level server context, Resolves i c route level tr → c.request.userId = userId.value →
    tr.pre.capabilities.servers.get? route.serverId = some server →
    server.allowUserInput = false →
    tr.pre.capabilities.view.serverContexts.get? route.serverId = some context →
    level = configuredLevel server route.toolName

/-- What a call of the user forwards without a matching rule was resolved earlier, and if
    `Approval` was configured then, it has claimed an approval. -/
def ForwardsApproved (userId : UserId) (route : Route) (before : List PlatformTransition)
    (tr : PlatformTransition) : Prop :=
  ∀ i c f gtr, tr.gateway? = some gtr → Sends i c f gtr → c.request.userId = userId.value →
    f.route = route → f.result.matchedRuleId = none →
    ∃ tr' ∈ before, ∃ c' level, Resolves i c' route level tr' ∧ c'.request = c.request ∧
      ∀ server context, tr'.pre.capabilities.servers.get? route.serverId = some server →
        server.allowUserInput = false →
        tr'.pre.capabilities.view.serverContexts.get? route.serverId = some context →
        configuredLevel server route.toolName = .approval →
        ∃ id, f.approvalRequestId = some id ∧
          ∃ gtr' ∈ before.filterMap PlatformTransition.gateway?, Claims i c f id gtr'

/-- The server of the example with this danger level for its tool. -/
def filesWith (level : DangerLevel) : Server :=
  { filesServer with
    capabilities := ⟨Dict.empty.set "purge" ⟨some true, none, some level⟩, .empty, .empty⟩ }

/-- The server is set up with this level and connected; a user without permissions. -/
def setUp (level : DangerLevel) : List PlatformAction :=
  [.capability (.saveServer (filesWith level)),
    .capability (.initializeManagedServerContext "files"),
    .capability (.refresh "files" none .online none filesLists),
    .capability (.createUser alice .empty)]

/-- The user submits capabilities and says nothing about any tool. -/
def submit : PlatformAction := .capability (.read (.handleSetCapabilities alice .empty))

def alicePurge : ToolCallRequest := ⟨.modern, alice.value, .obj [], none⟩

/-- The steps of a call of the user from its evaluation on. -/
def evaluatePurge : List PlatformAction :=
  [.gateway (.policy (.readServer 0)), .gateway (.policy (.readGlobal 0)),
    .gateway (.policy (.store 0)), .gateway (.call 0 .decided)]

/-- The user calls the tool, which needs approval. -/
def togetherRun : List PlatformAction :=
  setUp .approval ++ submit :: (.gateway (.start alicePurge) ::
    .gateway (.call 0 (.resolve purgeRoute .approval)) :: evaluatePurge)

/-- The user submits while the tool is `Silent`; then the administrator asks for approval. -/
def shadowBefore : List PlatformAction :=
  setUp .silent ++ [submit,
    .capability (.updateServerCapabilities "files" (filesWith .approval).capabilities),
    .gateway (.start alicePurge)]

/-- The call is decided with `Silent` and sent. -/
def shadowRun : List PlatformAction :=
  shadowBefore ++ .gateway (.call 0 (.resolve purgeRoute .silent)) ::
    (evaluatePurge ++ [.gateway (.call 0 .send)])

end PetaCore
