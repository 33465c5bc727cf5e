import Mathlib

/-!
# Runs of specified programs

A triple of `Std.Do` about a program with one state and one kind of exception is a statement about
its runs: each run from a state of the precondition ends in the postcondition of its kind.
-/

open Std.Do

set_option mvcgen.warning false

namespace StateTriple

variable {ε σ α : Type}

/-- The end of a call that has no effect of its own on the state. -/
def await : Except ε α → EStateM ε σ α
  | .ok a => pure a
  | .error e => throw e

@[spec] theorem await_spec (r : Except ε α) (s₀ : σ) :
    ⦃fun s => ⌜s = s₀⌝⦄ (await r : EStateM ε σ α)
    ⦃post⟨fun a s => ⌜r = .ok a ∧ s = s₀⌝, fun e s => ⌜r = .error e ∧ s = s₀⌝⟩⦄ := by
  cases r with
  | ok a => mvcgen [await]
  | error e => mvcgen [await]

section

variable {x : EStateM ε σ α} {P : σ → Prop} {Q : α → σ → Prop} {E : ε → σ → Prop}

/-- The weakest precondition of a program is the postcondition at the end of its run. -/
theorem wp_apply (x : EStateM ε σ α) (post : PostCond α (.except ε (.arg σ .pure))) (s : σ) :
    wp⟦x⟧ post s =
      match x s with
      | .ok a s' => post.1 a s'
      | .error e s' => post.2.1 e s' :=
  rfl

variable (h : ⦃fun s => ⌜P s⌝⦄ x ⦃post⟨fun a s => ⌜Q a s⌝, fun e s => ⌜E e s⌝⟩⦄)

include h

theorem of_ok {s s' : σ} {a : α} (hs : P s) (hrun : x s = .ok a s') : Q a s' := by
  have hpost := h s hs
  rw [wp_apply, hrun] at hpost
  exact hpost

theorem of_error {s s' : σ} {e : ε} (hs : P s) (hrun : x s = .error e s') : E e s' := by
  have hpost := h s hs
  rw [wp_apply, hrun] at hpost
  exact hpost

end

end StateTriple
