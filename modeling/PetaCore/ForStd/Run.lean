import Mathlib.Data.List.Induction

/-!
# Runs of a partial step function

A system is a state type, an action type and a partial step function
`step : σ → α → Option σ`: an action carries every choice that is not determined by
the state, and `none` means that the action is not enabled. A run is the list of
transitions it makes, so that properties can speak about what happened earlier.

- `IsRun.invariant`: a property kept by every step holds in every state reached
- `IsRun.history`: the same for a property of the transitions made so far and the state
- `Along`: a property of every transition together with the transitions before it
- `IsRun.project`: a run of a system of several parts, as a run of one of them
-/

universe u v

namespace Run

/-- One transition of a run: the state before, the action, the state after. -/
structure Transition (σ : Type u) (α : Type v) where
  pre : σ
  act : α
  post : σ

variable {σ : Type u} {α : Type v} (step : σ → α → Option σ)

/-- `IsRun step s trs t`: the transitions `trs` lead from `s` to `t`. -/
def IsRun (s : σ) : List (Transition σ α) → σ → Prop
  | [], t => s = t
  | tr :: trs, t => tr.pre = s ∧ step tr.pre tr.act = some tr.post ∧ IsRun tr.post trs t

/-- The state after a list of actions, when each of them is enabled in turn. -/
def exec (s : σ) : List α → Option σ
  | [] => some s
  | a :: as =>
    match step s a with
    | none => none
    | some s' => exec s' as

/-- The transitions made by a list of actions, up to the first one that is not enabled. -/
def trace (s : σ) : List α → List (Transition σ α)
  | [] => []
  | a :: as =>
    match step s a with
    | none => []
    | some s' => ⟨s, a, s'⟩ :: trace s' as

variable {step}

@[simp] theorem isRun_nil (s t : σ) : IsRun step s [] t ↔ s = t := Iff.rfl

theorem isRun_append (s t : σ) (xs ys : List (Transition σ α)) :
    IsRun step s (xs ++ ys) t ↔ ∃ u, IsRun step s xs u ∧ IsRun step u ys t := by
  induction xs generalizing s with
  | nil => simp
  | cons x xs ih =>
    simp only [List.cons_append, IsRun, ih]
    constructor
    · rintro ⟨hpre, hstep, u, hxs, hys⟩
      exact ⟨u, ⟨hpre, hstep, hxs⟩, hys⟩
    · rintro ⟨u, ⟨hpre, hstep, hxs⟩, hys⟩
      exact ⟨hpre, hstep, u, hxs, hys⟩

theorem isRun_snoc (s t : σ) (xs : List (Transition σ α)) (x : Transition σ α) :
    IsRun step s (xs ++ [x]) t ↔
      IsRun step s xs x.pre ∧ step x.pre x.act = some x.post ∧ x.post = t := by
  rw [isRun_append]
  constructor
  · rintro ⟨u, hxs, hpre, hstep, hpost⟩
    exact ⟨hpre ▸ hxs, hstep, hpost⟩
  · rintro ⟨hxs, hstep, hpost⟩
    exact ⟨x.pre, hxs, rfl, hstep, hpost⟩

/-- A list of actions that is enabled all the way is a run. -/
theorem isRun_trace (s t : σ) (as : List α) (h : exec step s as = some t) :
    IsRun step s (trace step s as) t := by
  induction as generalizing s with
  | nil => simpa [exec, trace] using h
  | cons a as ih =>
    simp only [exec] at h
    simp only [trace]
    cases hstep : step s a with
    | none => simp [hstep] at h
    | some s' =>
      simp only [hstep] at h
      exact ⟨rfl, hstep, ih s' h⟩

theorem exec_append (s t : σ) (as bs : List α) (h : exec step s as = some t) :
    exec step s (as ++ bs) = exec step t bs := by
  induction as generalizing s with
  | nil =>
    cases h
    rfl
  | cons a as ih =>
    simp only [exec, List.cons_append] at h ⊢
    cases hstep : step s a with
    | none => simp [hstep] at h
    | some s' =>
      simp only [hstep] at h ⊢
      exact ih s' h

theorem trace_append (s t : σ) (as bs : List α) (h : exec step s as = some t) :
    trace step s (as ++ bs) = trace step s as ++ trace step t bs := by
  induction as generalizing s with
  | nil =>
    cases h
    rfl
  | cons a as ih =>
    simp only [exec, trace, List.cons_append] at h ⊢
    cases hstep : step s a with
    | none => simp [hstep] at h
    | some s' =>
      simp only [hstep] at h ⊢
      rw [ih s' h]
      rfl

theorem exec_singleton (s : σ) (a : α) : exec step s [a] = step s a := by
  simp only [exec]
  cases step s a with
  | none => rfl
  | some s' => rfl

theorem trace_cons (s s' : σ) (a : α) (as : List α) (h : step s a = some s') :
    trace step s (a :: as) = ⟨s, a, s'⟩ :: trace step s' as := by
  simp only [trace, h]

/-- A transition of a list of actions is made by the first one or by the rest. -/
theorem mem_trace_cons (s : σ) (a : α) (as : List α) (tr : Transition σ α)
    (h : tr ∈ trace step s (a :: as)) :
    ∃ s', step s a = some s' ∧ (tr = ⟨s, a, s'⟩ ∨ tr ∈ trace step s' as) := by
  simp only [trace] at h
  cases hstep : step s a with
  | none => simp [hstep] at h
  | some s' =>
    simp only [hstep, List.mem_cons] at h
    exact ⟨s', rfl, h⟩

/-- A list of actions that is enabled all the way makes one transition for each. -/
theorem map_act_trace (s t : σ) (as : List α) (h : exec step s as = some t) :
    (trace step s as).map (·.act) = as := by
  induction as generalizing s with
  | nil => rfl
  | cons a as ih =>
    simp only [exec, trace] at h ⊢
    cases hstep : step s a with
    | none => simp [hstep] at h
    | some s' =>
      simp only [hstep] at h ⊢
      rw [List.map_cons, ih s' h]

/-- The transitions of a list of actions are made by actions of the list. -/
theorem act_mem_of_mem_trace (s : σ) (as : List α) (tr : Transition σ α)
    (h : tr ∈ trace step s as) : tr.act ∈ as := by
  induction as generalizing s with
  | nil => simp [trace] at h
  | cons a as ih =>
    simp only [trace] at h
    cases hstep : step s a with
    | none => simp [hstep] at h
    | some s' =>
      simp only [hstep, List.mem_cons] at h
      rcases h with rfl | h
      · exact List.mem_cons_self
      · exact List.mem_cons_of_mem _ (ih s' h)

variable {trs : List (Transition σ α)}

/-- Induction on a run from its start, with the transitions made so far in hand. The
    guard `G` is a property that every transition of the run has. -/
theorem IsRun.history_of {G : Transition σ α → Prop}
    {P : List (Transition σ α) → σ → Prop} {s₀ : σ} (h₀ : P [] s₀)
    (hstep : ∀ trs s a s', IsRun step s₀ trs s → P trs s → step s a = some s' →
      G ⟨s, a, s'⟩ → P (trs ++ [⟨s, a, s'⟩]) s')
    {t : σ} (h : IsRun step s₀ trs t) (hok : ∀ tr ∈ trs, G tr) : P trs t := by
  induction trs using List.reverseRecOn generalizing t with
  | nil => exact ((isRun_nil s₀ t).mp h) ▸ h₀
  | append_singleton xs x ih =>
    obtain ⟨hxs, hx, rfl⟩ := (isRun_snoc s₀ t xs x).mp h
    have hP := ih hxs (fun tr htr => hok tr (List.mem_append_left _ htr))
    exact hstep xs x.pre x.act x.post hxs hP hx (hok x (by simp))

/-- Induction on a run from its start, with the transitions made so far in hand. -/
theorem IsRun.history {P : List (Transition σ α) → σ → Prop} {s₀ : σ} (h₀ : P [] s₀)
    (hstep : ∀ trs s a s', IsRun step s₀ trs s → P trs s → step s a = some s' →
      P (trs ++ [⟨s, a, s'⟩]) s')
    {t : σ} (h : IsRun step s₀ trs t) : P trs t :=
  IsRun.history_of (G := fun _ => True) h₀
    (fun trs s a s' hrun hP hs _ => hstep trs s a s' hrun hP hs) h (fun _ _ => trivial)

/-- An invariant of the step function holds in every state a run reaches. -/
theorem IsRun.invariant {I : σ → Prop}
    (hstep : ∀ s a s', I s → step s a = some s' → I s') {s t : σ}
    (h : IsRun step s trs t) (hs : I s) : I t :=
  IsRun.history (P := fun _ t => I t) hs
    (fun _ s a s' _ hI hs => hstep s a s' hI hs) h

/-- The states before each transition of a run are themselves reached by a run. -/
theorem IsRun.split {s t : σ} {xs ys : List (Transition σ α)} {x : Transition σ α}
    (h : IsRun step s (xs ++ x :: ys) t) :
    IsRun step s xs x.pre ∧ step x.pre x.act = some x.post ∧ IsRun step x.post ys t := by
  obtain ⟨u, hxs, hpre, hx, hys⟩ := (isRun_append s t xs (x :: ys)).mp h
  exact ⟨hpre ▸ hxs, hx, hys⟩

/-- Each transition of a run is a step. -/
theorem IsRun.step_of_mem {s t : σ} (h : IsRun step s trs t)
    {tr : Transition σ α} (htr : tr ∈ trs) : step tr.pre tr.act = some tr.post := by
  obtain ⟨xs, ys, rfl⟩ := List.append_of_mem htr
  exact h.split.2.1

/-! ## Properties of each transition and what came before it -/

/-- `Along P trs`: every transition `x` of `trs` satisfies `P xs x`, where `xs` are the
    transitions before it. -/
def Along {τ : Type u} (P : List τ → τ → Prop) (trs : List τ) : Prop :=
  ∀ xs x ys, trs = xs ++ x :: ys → P xs x

theorem along_snoc {τ : Type u} (P : List τ → τ → Prop) (trs : List τ) (x : τ) :
    Along P (trs ++ [x]) ↔ Along P trs ∧ P trs x := by
  constructor
  · intro h
    refine ⟨?_, h trs x [] rfl⟩
    intro xs y ys heq
    exact h xs y (ys ++ [x]) (by simp [heq])
  · rintro ⟨htrs, hx⟩ xs y ys heq
    -- the split point is either the new transition or lies in the old ones
    induction ys using List.reverseRecOn with
    | nil =>
      obtain ⟨rfl, hxy⟩ := List.append_inj' heq rfl
      obtain rfl : x = y := by simpa using hxy
      exact hx
    | append_singleton zs z _ =>
      rw [← List.cons_append, ← List.append_assoc] at heq
      obtain ⟨rfl, _⟩ := List.append_inj' heq rfl
      exact htrs xs y zs rfl

/-- The transitions of a run by position, when one is added. -/
theorem getElem?_snoc {τ : Type u} (trs : List τ) (x y : τ) (r : Nat) :
    (trs ++ [x])[r]? = some y ↔ trs[r]? = some y ∨ (r = trs.length ∧ x = y) := by
  rcases Nat.lt_trichotomy r trs.length with hlt | rfl | hgt
  · rw [List.getElem?_append_left hlt]
    constructor
    · exact Or.inl
    · intro h
      cases h with
      | inl h => exact h
      | inr h => omega
  · simp
  · rw [List.getElem?_eq_none (by simp; omega), List.getElem?_eq_none (by omega)]
    constructor
    · intro h
      cases h
    · intro h
      cases h with
      | inl h => cases h
      | inr h => omega

/-- What holds along a list of transitions holds along its beginning. -/
theorem Along.of_append {τ : Type u} {P : List τ → τ → Prop} {xs ys : List τ}
    (h : Along P (xs ++ ys)) : Along P xs := by
  intro us x vs heq
  exact h us x (vs ++ ys) (by simp [heq])

/-! ## Parts of a system -/

section

variable {σ' : Type u} {α' : Type v} {step' : σ' → α' → Option σ'}

/-- A transition as seen by a part: its state is read by `π`, its actions are those for which
    `ρ` gives one. -/
def Transition.project (π : σ → σ') (ρ : α → Option α') (tr : Transition σ α) :
    Option (Transition σ' α') :=
  (ρ tr.act).map fun b => ⟨π tr.pre, b, π tr.post⟩

/-- The transitions that a part takes in a run make a run of the part. -/
theorem IsRun.project {π : σ → σ'} {ρ : α → Option α'}
    (hpart : ∀ s a s', step s a = some s' →
      match ρ a with
      | some b => step' (π s) b = some (π s')
      | none => π s' = π s)
    {s t : σ} {trs : List (Transition σ α)} (h : IsRun step s trs t) :
    IsRun step' (π s) (trs.filterMap (Transition.project π ρ)) (π t) := by
  induction trs generalizing s with
  | nil => exact congrArg π h
  | cons tr trs ih =>
    obtain ⟨rfl, hstep, hrest⟩ := h
    have htail := ih hrest
    have hhead := hpart tr.pre tr.act tr.post hstep
    cases hρ : ρ tr.act with
    | none =>
      simp only [hρ] at hhead
      rw [List.filterMap_cons_none (by simp [Transition.project, hρ]), ← hhead]
      exact htail
    | some b =>
      simp only [hρ] at hhead
      rw [List.filterMap_cons_some (b := ⟨π tr.pre, b, π tr.post⟩)
        (by simp [Transition.project, hρ])]
      exact ⟨rfl, hhead, htail⟩

end

end Run
