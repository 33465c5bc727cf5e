import Mathlib.Data.List.Basic

/-!
# Glob patterns

What a list of symbols matches: a literal stands for itself, `one` for one element and `many` for
any number of them. The wildcards stand for elements with a given property only; a glob proper is
the one in which every element has it.

- `Matches`: the relation between a pattern and what it matches
- `matches_many_cons_iff`: what `many` can do with the next element
- `matches_literals_iff`: a pattern without wildcards matches itself
- `Matches.countP_eq`: elements that no wildcard stands for are those of the literals
-/

universe u

namespace Glob

/-- A symbol of a pattern. -/
inductive Symbol (α : Type u) where
  | literal (a : α)
  | one
  | many
deriving DecidableEq

variable {α : Type u}

/-- A list matches a pattern whose wildcards stand for elements that are `ok`. -/
inductive Matches (ok : α → Prop) : List (Symbol α) → List α → Prop
  | nil : Matches ok [] []
  | literal {a : α} {p : List (Symbol α)} {s : List α} :
      Matches ok p s → Matches ok (.literal a :: p) (a :: s)
  | one {a : α} {p : List (Symbol α)} {s : List α} :
      ok a → Matches ok p s → Matches ok (.one :: p) (a :: s)
  | many {t s : List α} {p : List (Symbol α)} :
      (∀ a ∈ t, ok a) → Matches ok p s → Matches ok (.many :: p) (t ++ s)

variable {ok : α → Prop} {p : List (Symbol α)}

variable {s : List α}

@[simp] theorem matches_nil_iff : Matches ok [] s ↔ s = [] := by
  constructor
  · intro h
    cases h
    rfl
  · intro h
    exact h ▸ .nil

theorem matches_literal_iff {a : α} :
    Matches ok (.literal a :: p) s ↔ ∃ t, s = a :: t ∧ Matches ok p t := by
  constructor
  · intro h
    cases h with
    | literal h => exact ⟨_, rfl, h⟩
  · intro h
    obtain ⟨t, rfl, h⟩ := h
    exact .literal h

theorem matches_one_iff :
    Matches ok (.one :: p) s ↔ ∃ a t, s = a :: t ∧ ok a ∧ Matches ok p t := by
  constructor
  · intro h
    cases h with
    | one ha h => exact ⟨_, _, rfl, ha, h⟩
  · intro h
    obtain ⟨a, t, rfl, ha, h⟩ := h
    exact .one ha h

theorem matches_many_iff :
    Matches ok (.many :: p) s ↔ ∃ t r, s = t ++ r ∧ (∀ a ∈ t, ok a) ∧ Matches ok p r := by
  constructor
  · intro h
    cases h with
    | many ht h => exact ⟨_, _, rfl, ht, h⟩
  · intro h
    obtain ⟨t, r, rfl, ht, h⟩ := h
    exact .many ht h

theorem matches_many_nil_iff : Matches ok (.many :: p) [] ↔ Matches ok p [] := by
  rw [matches_many_iff]
  constructor
  · intro h
    obtain ⟨t, r, hs, _, h⟩ := h
    obtain ⟨rfl, rfl⟩ := List.append_eq_nil_iff.mp hs.symm
    exact h
  · intro h
    exact ⟨[], [], rfl, fun a ha => absurd ha List.not_mem_nil, h⟩

/-- `many` stands for the next element and goes on, or it stands for nothing more. -/
theorem matches_many_cons_iff {a : α} :
    Matches ok (.many :: p) (a :: s) ↔
      ok a ∧ Matches ok (.many :: p) s ∨ Matches ok p (a :: s) := by
  constructor
  · intro h
    obtain ⟨t, r, hs, ht, hr⟩ := matches_many_iff.mp h
    cases t with
    | nil => exact .inr (hs ▸ hr)
    | cons b t =>
      obtain ⟨rfl, rfl⟩ := List.cons.inj hs
      have ht' : ∀ b ∈ t, ok b := fun b hb => ht b (List.mem_cons_of_mem a hb)
      exact .inl ⟨ht a List.mem_cons_self, .many ht' hr⟩
  · intro h
    cases h with
    | inl h =>
      obtain ⟨t, r, rfl, ht, hr⟩ := matches_many_iff.mp h.2
      refine matches_many_iff.mpr ⟨a :: t, r, rfl, ?_, hr⟩
      intro b hb
      cases List.mem_cons.mp hb with
      | inl hb => exact hb ▸ h.1
      | inr hb => exact ht b hb
    | inr h =>
      exact matches_many_iff.mpr ⟨[], a :: s, rfl, fun b hb => absurd hb List.not_mem_nil, h⟩

/-- Literals in front of a pattern stand for themselves. -/
theorem matches_literals_append_iff {xs s : List α} :
    Matches ok (xs.map .literal ++ p) s ↔ ∃ t, s = xs ++ t ∧ Matches ok p t := by
  induction xs generalizing s with
  | nil => simp
  | cons a xs ih =>
    rw [List.map_cons, List.cons_append, matches_literal_iff]
    constructor
    · intro h
      obtain ⟨t, rfl, h⟩ := h
      obtain ⟨r, rfl, hr⟩ := ih.mp h
      exact ⟨r, rfl, hr⟩
    · intro h
      obtain ⟨r, rfl, hr⟩ := h
      exact ⟨xs ++ r, rfl, ih.mpr ⟨r, rfl, hr⟩⟩

/-- A pattern without wildcards matches itself only. -/
theorem matches_literals_iff {xs : List α} : Matches ok (xs.map .literal) s ↔ s = xs := by
  have h := @matches_literals_append_iff _ ok [] xs s
  simpa using h

/-- A pattern of `n` single wildcards. -/
theorem matches_replicate_one_iff {n : Nat} :
    Matches ok (List.replicate n .one) s ↔ s.length = n ∧ ∀ a ∈ s, ok a := by
  induction n generalizing s with
  | zero =>
    rw [List.replicate_zero, matches_nil_iff, List.length_eq_zero_iff]
    constructor
    · intro h
      exact ⟨h, fun a ha => absurd (h ▸ ha) List.not_mem_nil⟩
    · intro h
      exact h.1
  | succ n ih =>
    rw [List.replicate_succ, matches_one_iff]
    constructor
    · intro h
      obtain ⟨a, t, rfl, ha, h⟩ := h
      obtain ⟨hlen, hok⟩ := ih.mp h
      refine ⟨by simp [hlen], ?_⟩
      intro b hb
      cases List.mem_cons.mp hb with
      | inl hb => exact hb ▸ ha
      | inr hb => exact hok b hb
    · intro h
      obtain ⟨hlen, hok⟩ := h
      cases s with
      | nil => cases hlen
      | cons a s =>
        refine ⟨a, s, rfl, hok a List.mem_cons_self, ih.mpr ⟨Nat.succ.inj hlen, ?_⟩⟩
        intro b hb
        exact hok b (List.mem_cons_of_mem a hb)

/-- Whether a symbol is a literal with a property. -/
def Symbol.isLiteral (q : α → Bool) : Symbol α → Bool
  | .literal a => q a
  | .one | .many => false

/-- What no wildcard stands for is matched by the literals. -/
theorem Matches.countP_eq {q : α → Bool} (hq : ∀ a, ok a → q a = false)
    (h : Matches ok p s) : s.countP q = p.countP (Symbol.isLiteral q) := by
  induction h with
  | nil => rfl
  | literal _ ih => rw [List.countP_cons, List.countP_cons, ih]; rfl
  | one ha _ ih => simp [ih, hq _ ha, Symbol.isLiteral]
  | @many t _ _ ht _ ih =>
    have hnone : t.countP q = 0 := by
      apply List.countP_eq_zero.mpr
      intro a ha
      simp [hq a (ht a ha)]
    rw [List.countP_append, hnone, ih, List.countP_cons]
    simp [Symbol.isLiteral]

end Glob
