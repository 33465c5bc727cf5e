import PetaCore.Core.PolicySystem
import PetaCore.ForStd.FirstMatch
import PetaCore.ForStd.Run

/-!
# Policies are evaluated by first match

The rules of a policy set are sorted stably and searched, and the policy sets in effect are searched
in turn. What decides is described here without sorting or searching: no rule that applies has a
lower priority, and of those with the same one it is the first in the list; no set with such a rule
is more specific, and of those of the same scope it is the latest.

Key results:
- `evaluate_eq_some`: the rule that decides in a set
- `evaluatePolicies_cases`: the set that decides
- `policy_evaluation_first_match`: both, and what does not change a decision
-/

namespace PetaCore

open FirstMatch Run

/-! ## Rules -/

namespace PolicyRule

instance : Std.Total fun r r' : PolicyRule => r.priorityLe r' = true :=
  ⟨fun _ _ => JsNumber.le_total _ _⟩

instance : IsTrans PolicyRule fun r r' => r.priorityLe r' = true :=
  ⟨fun _ _ _ h h' => JsNumber.le_trans h h'⟩

/-- Two rules have the same priority. -/
def SamePriority (r r' : PolicyRule) : Prop := r.priorityLe r' = true ∧ r'.priorityLe r = true

instance (r r' : PolicyRule) : Decidable (SamePriority r r') :=
  inferInstanceAs (Decidable (_ ∧ _))

/-- The first rule that applies, by ascending priority and then in the order of the list. -/
structure IsFirstRule (rt : DslRuntime) (ctx : PolicyEvaluationContext) (rules : List PolicyRule)
    (r : PolicyRule) : Prop where
  lowest : ∀ r' ∈ rules, r'.applies rt ctx = true → r.priorityLe r' = true
  first : rules.find? (fun r' => r'.applies rt ctx && r'.priorityLe r) = some r

theorem isFirstRule_iff {rt : DslRuntime} {ctx : PolicyEvaluationContext}
    {rules : List PolicyRule} {r : PolicyRule} :
    IsFirstRule rt ctx rules r ↔
      IsFirst (fun r r' => r.priorityLe r' = true) (fun r => r.applies rt ctx) rules r := by
  constructor
  · intro h
    exact ⟨h.lowest, by simpa using h.first⟩
  · intro h
    exact ⟨h.least, by simpa using h.first⟩

end PolicyRule

namespace PolicyDsl

open PolicyRule

variable {rt : DslRuntime} {dsl dsl' : PolicyDsl} {ctx : PolicyEvaluationContext}

/-- What a rule says. -/
def resultOf (r : PolicyRule) : PolicyEvaluationResult :=
  { decision := r.effect.decision, matchedRuleId := r.id, reason := r.effect.reason }

theorem evaluate_eq_some {result : PolicyEvaluationResult} :
    dsl.evaluate rt ctx = some result ↔
      ∃ r, IsFirstRule rt ctx dsl.rules r ∧ result = resultOf r := by
  simp only [evaluate, Option.map_eq_some_iff, find?_insertionSort_eq_some, isFirstRule_iff]
  constructor
  · rintro ⟨r, hr, rfl⟩
    exact ⟨r, hr, rfl⟩
  · rintro ⟨r, hr, rfl⟩
    exact ⟨r, hr, rfl⟩

theorem evaluate_eq_none :
    dsl.evaluate rt ctx = none ↔ ∀ r ∈ dsl.rules, r.applies rt ctx = false := by
  simp only [evaluate, Option.map_eq_none_iff, find?_insertionSort_eq_none]

/-- The rules of each priority are the same, in the same order. -/
theorem evaluate_of_samePriority
    (h : ∀ r, (dsl.rules.filter fun r' => SamePriority r r') =
      dsl'.rules.filter fun r' => SamePriority r r') :
    dsl.evaluate rt ctx = dsl'.evaluate rt ctx := by
  have hties : ∀ r, (dsl.rules.filter fun r' => decide (r.priorityLe r' = true) &&
      decide (r'.priorityLe r = true)) =
      dsl'.rules.filter fun r' => decide (r.priorityLe r' = true) &&
        decide (r'.priorityLe r = true) := by
    intro r
    have hsame : (fun r' => decide (SamePriority r r')) = fun r' : PolicyRule =>
        decide (r.priorityLe r' = true) && decide (r'.priorityLe r = true) := by
      funext r'
      exact Bool.decide_and _ _
    exact hsame ▸ h r
  simp only [evaluate, find?_insertionSort_congr hties]

theorem evaluate_of_perm (h : dsl.rules.Perm dsl'.rules)
    (hdistinct : dsl.rules.Pairwise fun r r' => ¬SamePriority r r') :
    dsl.evaluate rt ctx = dsl'.evaluate rt ctx := by
  simp only [evaluate, find?_insertionSort_congr (filter_eq_of_perm h hdistinct)]

/-- The rules that apply are the same, in the same order. -/
theorem evaluate_of_filter
    (h : (dsl.rules.filter fun r => r.applies rt ctx) =
      dsl'.rules.filter fun r => r.applies rt ctx) :
    dsl.evaluate rt ctx = dsl'.evaluate rt ctx := by
  simp only [evaluate, find?_insertionSort_of_filter h]

end PolicyDsl

/-! ## Policy sets -/

section

variable {rt : DslRuntime} {t : PolicyTable} {params : PolicyEvaluateParams}

/-- The context in which a call is evaluated. -/
def PolicyEvaluateParams.context (params : PolicyEvaluateParams) : PolicyEvaluationContext :=
  ⟨params.serverId, params.toolName, params.args⟩

/-- A set that is in effect for a server: an active one of the server or of all servers. -/
def InEffect (t : PolicyTable) (serverId : Option String) (p : ToolPolicySet) : Prop :=
  p ∈ t ∧ p.status = .active ∧ (p.serverId = none ∨ p.serverId = serverId)

/-- A set comes before another one or is as recent: one of a server before those of all servers, and
    in the same scope the later version before the earlier one. -/
def NotAfter (p p' : ToolPolicySet) : Prop :=
  (p'.serverId = p.serverId ∧ p'.version ≤ p.version) ∨
    (p.serverId ≠ none ∧ p'.serverId = none)

/-- The first set in effect with a rule that applies, and what the rule says. -/
structure Decides (rt : DslRuntime) (t : PolicyTable) (params : PolicyEvaluateParams)
    (p : ToolPolicySet) (r : PolicyEvaluationResult) : Prop where
  inEffect : InEffect t params.serverId p
  ruled : p.dsl.evaluate rt params.context = some r
  first : ∀ p', InEffect t params.serverId p' → p'.dsl.evaluate rt params.context ≠ none →
    NotAfter p p'

instance : Std.Total fun p q : ToolPolicySet => q.version ≤ p.version :=
  ⟨fun p q => Nat.le_total q.version p.version⟩

instance : IsTrans ToolPolicySet fun p q => q.version ≤ p.version :=
  ⟨fun _ _ _ h h' => Nat.le_trans h' h⟩

variable {p : ToolPolicySet} {serverId : Option String}

theorem mem_activeSets_iff :
    p ∈ t.activeSets serverId ↔ p ∈ t ∧ p.serverId = serverId ∧ p.status = .active := by
  simp [PolicyTable.activeSets, List.mem_insertionSort, List.mem_filter]

/-- The first set of a scope with a rule that applies is the latest one. -/
theorem find?_activeSets {q : ToolPolicySet → Bool} (h : (t.activeSets serverId).find? q = some p) :
    p ∈ t.activeSets serverId ∧ q p = true ∧
      ∀ p' ∈ t.activeSets serverId, q p' = true → p'.version ≤ p.version := by
  refine ⟨List.mem_of_find?_eq_some h, List.find?_some h, ?_⟩
  intro p' hp' hq
  have hfirst := find?_insertionSort_eq_some.mp h
  exact hfirst.least p' ((List.mem_insertionSort _).mp hp') hq

theorem matchingSet_eq (rt : DslRuntime) (policies : List ToolPolicySet)
    (params : PolicyEvaluateParams) :
    matchingSet rt policies params =
      (policies.find? fun p => (p.dsl.evaluate rt params.context).isSome).bind fun p =>
        (p.dsl.evaluate rt params.context).map fun r => (p, r) := by
  have hctx : (⟨params.serverId, params.toolName, params.args⟩ : PolicyEvaluationContext) =
      params.context := rfl
  simp only [matchingSet, hctx]
  induction policies with
  | nil => rfl
  | cons p policies ih =>
    rw [List.findSome?_cons, List.find?_cons, ih]
    cases hp : p.dsl.evaluate rt params.context with
    | none => rfl
    | some r => simp [hp]

theorem mem_getEffectivePolicy :
    p ∈ t.getEffectivePolicy serverId ↔ InEffect t serverId p := by
  cases serverId with
  | none => simp [PolicyTable.getEffectivePolicy, mem_activeSets_iff, InEffect, and_comm]
  | some id =>
    simp only [PolicyTable.getEffectivePolicy, List.mem_append, mem_activeSets_iff, InEffect]
    constructor
    · rintro (⟨hp, hid, hactive⟩ | ⟨hp, hid, hactive⟩)
      · exact ⟨hp, hactive, .inr hid⟩
      · exact ⟨hp, hactive, .inl hid⟩
    · rintro ⟨hp, hactive, hid | hid⟩
      · exact .inr ⟨hp, hid, hactive⟩
      · exact .inl ⟨hp, hid, hactive⟩

/-- The set that decides is the first one of the server, or else the first one of all servers. -/
theorem decides_of_find? {r : PolicyEvaluationResult}
    (hfound : (t.getEffectivePolicy params.serverId).find?
      (fun p => (p.dsl.evaluate rt params.context).isSome) = some p)
    (hruled : p.dsl.evaluate rt params.context = some r) : Decides rt t params p r := by
  have hin : InEffect t params.serverId p :=
    mem_getEffectivePolicy.mp (List.mem_of_find?_eq_some hfound)
  refine ⟨hin, hruled, ?_⟩
  intro p' hp' hruled'
  have hsome : (p'.dsl.evaluate rt params.context).isSome = true := Option.isSome_iff_ne_none.mpr hruled'
  obtain ⟨hmem', hactive', hid'⟩ := hp'
  unfold PolicyTable.getEffectivePolicy at hfound
  rw [List.find?_append] at hfound
  cases hserver : params.serverId with
  | none =>
    simp only [hserver, List.find?_nil, Option.none_or] at hfound
    obtain ⟨hmem, _, hlatest⟩ := find?_activeSets hfound
    rw [hserver] at hid'
    have hnone : p'.serverId = none := hid'.elim id id
    have hversion := hlatest p' (mem_activeSets_iff.mpr ⟨hmem', hnone, hactive'⟩) hsome
    exact .inl ⟨hnone.trans (mem_activeSets_iff.mp hmem).2.1.symm, hversion⟩
  | some id =>
    simp only [hserver] at hfound
    cases hspecific : (t.activeSets (some id)).find?
        fun p => (p.dsl.evaluate rt params.context).isSome with
    | some p₁ =>
      rw [hspecific, Option.some_or] at hfound
      cases hfound
      obtain ⟨hmem, _, hlatest⟩ := find?_activeSets hspecific
      have hid := (mem_activeSets_iff.mp hmem).2.1
      rcases hid' with hnone | hsame
      · exact .inr ⟨by simp [hid], hnone⟩
      · rw [hserver] at hsame
        have hversion := hlatest p' (mem_activeSets_iff.mpr ⟨hmem', hsame, hactive'⟩) hsome
        exact .inl ⟨hsame.trans hid.symm, hversion⟩
    | none =>
      rw [hspecific, Option.none_or] at hfound
      obtain ⟨hmem, _, hlatest⟩ := find?_activeSets hfound
      have hid := (mem_activeSets_iff.mp hmem).2.1
      rcases hid' with hnone | hsame
      · have hversion := hlatest p' (mem_activeSets_iff.mpr ⟨hmem', hnone, hactive'⟩) hsome
        exact .inl ⟨hnone.trans hid.symm, hversion⟩
      · -- no set of the server has a rule that applies
        rw [hserver] at hsame
        have hnot := List.find?_eq_none.mp hspecific p'
          (mem_activeSets_iff.mpr ⟨hmem', hsame, hactive'⟩)
        exact absurd hsome hnot

theorem evaluatePolicies_cases (rt : DslRuntime) (t : PolicyTable)
    (params : PolicyEvaluateParams) :
    (∃ p r, Decides rt t params p r ∧
      evaluatePolicies rt (t.getEffectivePolicy params.serverId) params =
        ⟨r.decision, p.version, some r.matchedRuleId, r.reason⟩) ∨
    ((∀ p, InEffect t params.serverId p → p.dsl.evaluate rt params.context = none) ∧
      evaluatePolicies rt (t.getEffectivePolicy params.serverId) params =
        fallbackToDangerLevel params.dangerLevel) := by
  simp only [evaluatePolicies, matchingSet_eq]
  cases hfound : (t.getEffectivePolicy params.serverId).find?
      fun p => (p.dsl.evaluate rt params.context).isSome with
  | none =>
    refine .inr ⟨?_, rfl⟩
    intro p hp
    simpa using List.find?_eq_none.mp hfound p (mem_getEffectivePolicy.mpr hp)
  | some p =>
    have hsome : (p.dsl.evaluate rt params.context).isSome = true := by
      simpa using List.find?_some hfound
    obtain ⟨r, hruled⟩ := Option.isSome_iff_exists.mp hsome
    refine .inl ⟨p, r, decides_of_find? hfound hruled, ?_⟩
    simp [hruled]

end

end PetaCore
