import Mathlib.Data.List.Basic

/-!
# Two runs that an observer cannot tell apart

A system with a total step function, an observer who takes some of the actions, and a
relation between states that are the same for the observer. If the actions of others keep a
state the same and the observer's own actions act alike on states that are the same, then
two runs in which the observer does the same things end in states that are the same,
whatever the others do in either of them.

- `Meets`: every action of a list meets a condition in the state in which it is taken
- `foldl_invariant`: what the actions that meet the condition keep
- `Unwinding.foldl_same`: the two runs
- `foldl_filter`: a run, and the same run without the actions of others
-/

universe u v

namespace Noninterference

variable {σ : Type u} {α : Type v}

/-- Every action meets a condition in the state in which it is taken. -/
def Meets (step : σ → α → σ) (G : σ → α → Prop) : σ → List α → Prop
  | _, [] => True
  | s, a :: as => G s a ∧ Meets step G (step s a) as

variable {G : σ → α → Prop} {step : σ → α → σ}

/-- What every action that meets the condition keeps, a list of them keeps. -/
theorem foldl_invariant {I : σ → Prop}
    (hstep : ∀ s a, I s → G s a → I (step s a)) {s : σ} {as : List α} (hs : I s)
    (has : Meets step G s as) : I (as.foldl step s) := by
  induction as generalizing s with
  | nil => exact hs
  | cons a as ih => exact ih (hstep s a hs has.1) has.2

theorem Meets.append {s : σ} {as bs : List α} (h : Meets step G s (as ++ bs)) :
    Meets step G s as ∧ Meets step G (as.foldl step s) bs := by
  induction as generalizing s with
  | nil => exact ⟨trivial, h⟩
  | cons a as ih =>
    obtain ⟨has, hbs⟩ := ih h.2
    exact ⟨⟨h.1, has⟩, hbs⟩

/-- A run, and the same run with the observer's actions only. `Rel` relates the states of the
    first to those of the second. -/
theorem foldl_filter {mine : α → Bool} {Rel : σ → σ → Prop}
    (hothers : ∀ s t a, G s a → mine a = false → Rel s t → Rel (step s a) t)
    (hown : ∀ s t a, G s a → mine a = true → Rel s t → Rel (step s a) (step t a))
    {s t : σ} {as : List α} (has : Meets step G s as) (hrel : Rel s t) :
    Rel (as.foldl step s) ((as.filter mine).foldl step t) := by
  induction as generalizing s t with
  | nil => exact hrel
  | cons a as ih =>
    cases ha : mine a with
    | false =>
      rw [List.filter_cons_of_neg (by simp [ha])]
      exact ih has.2 (hothers s t a has.1 ha hrel)
    | true =>
      rw [List.filter_cons_of_pos ha]
      exact ih has.2 (hown s t a has.1 ha hrel)

/-- The conditions on single steps. `I` is an invariant and `G` the condition that the
    actions of both runs meet; `mine` are the observer's actions. -/
structure Unwinding (step : σ → α → σ) (I : σ → Prop) (G : σ → α → Prop) (mine : α → Bool)
    (Same : σ → σ → Prop) : Prop where
  invariant : ∀ s a, I s → G s a → I (step s a)
  symm : ∀ s t, Same s t → Same t s
  others : ∀ s t a, I s → I t → G s a → mine a = false → Same s t → Same (step s a) t
  own : ∀ s t a, I s → I t → G s a → G t a → mine a = true → Same s t →
    Same (step s a) (step t a)

namespace Unwinding

variable {step : σ → α → σ} {I : σ → Prop} {G : σ → α → Prop} {mine : α → Bool}
  {Same : σ → σ → Prop}

/-- A run of others. -/
theorem foldl_others (h : Unwinding step I G mine Same) {s t : σ} {as : List α} (hs : I s)
    (ht : I t) (has : Meets step G s as) (hmine : ∀ a ∈ as, mine a = false)
    (hsame : Same s t) : Same (as.foldl step s) t := by
  induction as generalizing s with
  | nil => exact hsame
  | cons a as ih =>
    have hstep := h.others s t a hs ht has.1 (hmine a List.mem_cons_self) hsame
    exact ih (h.invariant s a hs has.1) has.2
      (fun b hb => hmine b (List.mem_cons_of_mem _ hb)) hstep

/-- Two runs in which the observer does the same things. -/
theorem foldl_same (h : Unwinding step I G mine Same) {s t : σ} {as bs : List α} (hs : I s)
    (ht : I t) (has : Meets step G s as) (hbs : Meets step G t bs)
    (hmine : as.filter mine = bs.filter mine) (hsame : Same s t) :
    Same (as.foldl step s) (bs.foldl step t) := by
  induction as generalizing s t bs with
  | nil =>
    have hothers : ∀ b ∈ bs, mine b = false := by
      intro b hb
      have hnil := List.filter_eq_nil_iff.mp hmine.symm b hb
      simpa using hnil
    exact h.symm _ _ (h.foldl_others ht hs hbs hothers (h.symm _ _ hsame))
  | cons a as ih =>
    have hs' := h.invariant s a hs has.1
    cases ha : mine a with
    | false =>
      rw [List.filter_cons_of_neg (by simp [ha])] at hmine
      exact ih hs' ht has.2 hbs hmine (h.others s t a hs ht has.1 ha hsame)
    | true =>
      -- the other run does the same after some actions of others
      rw [List.filter_cons_of_pos ha] at hmine
      obtain ⟨bs₁, bs₂, rfl, hothers, _, hrest⟩ := List.filter_eq_cons_iff.mp hmine.symm
      obtain ⟨hbs₁, hbs₂⟩ := hbs.append
      have hothers' : ∀ b ∈ bs₁, mine b = false := by
        intro b hb
        have hnot := hothers b hb
        simpa using hnot
      have ht₁ := foldl_invariant (fun s a hs hG => h.invariant s a hs hG) ht hbs₁
      have hsame₁ := h.symm _ _
        (h.foldl_others ht hs hbs₁ hothers' (h.symm _ _ hsame))
      rw [List.foldl_append]
      show Same (as.foldl step (step s a)) (bs₂.foldl step (step (bs₁.foldl step t) a))
      exact ih hs' (h.invariant _ a ht₁ hbs₂.1) has.2 hbs₂.2 hrest.symm
        (h.own _ _ a hs ht₁ has.1 hbs₂.1 ha hsame₁)

end Unwinding

end Noninterference
