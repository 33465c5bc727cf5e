import Mathlib.Data.List.Basic

/-!
# Texts joined by a separator

A text made of segments with a separator between them determines the segments that do not
contain the separator: from its end as many of them as are known to be there, from its start
the first one.

- `joinSegments_inj`: the segments after the head, read from the end
- `append_sep_inj`: the first segment
-/

universe u

namespace Segments

variable {α : Type u} {sep : α}

/-- A head followed by segments, each after a separator. -/
def joinSegments (sep : α) (head : List α) (segments : List (List α)) : List α :=
  segments.foldl (fun text s => text ++ sep :: s) head

/-- The last segment of a text. -/
theorem append_sep_inj_right {a b s t : List α} (hs : sep ∉ s) (ht : sep ∉ t)
    (h : a ++ sep :: s = b ++ sep :: t) : a = b ∧ s = t := by
  cases List.append_eq_append_iff.mp h with
  | inl hcase =>
    obtain ⟨as, rfl, htail⟩ := hcase
    cases as with
    | nil => exact ⟨by simp, (List.cons.inj htail).2⟩
    | cons x as =>
      -- the separator before `t` would lie in `s`
      have htail' := (List.cons.inj htail).2
      exact absurd (by rw [htail']; simp) hs
  | inr hcase =>
    obtain ⟨as, rfl, htail⟩ := hcase
    cases as with
    | nil => exact ⟨by simp, ((List.cons.inj htail).2).symm⟩
    | cons x as =>
      have htail' := (List.cons.inj htail).2
      exact absurd (by rw [htail']; simp) ht

/-- The first segment of a text. -/
theorem append_sep_inj {s t a b : List α} (hs : sep ∉ s) (ht : sep ∉ t)
    (h : s ++ sep :: a = t ++ sep :: b) : s = t ∧ a = b := by
  have hrev := congrArg List.reverse h
  simp only [List.reverse_append, List.reverse_cons, List.append_assoc,
    List.singleton_append] at hrev
  obtain ⟨hab, hst⟩ := append_sep_inj_right (by simpa using hs) (by simpa using ht) hrev
  exact ⟨List.reverse_injective hst, List.reverse_injective hab⟩

/-- The segments of a text, when their number is known. -/
theorem joinSegments_inj {a b : List α} {xs ys : List (List α)} (hlen : xs.length = ys.length)
    (hxs : ∀ s ∈ xs, sep ∉ s) (hys : ∀ s ∈ ys, sep ∉ s)
    (h : joinSegments sep a xs = joinSegments sep b ys) : a = b ∧ xs = ys := by
  induction xs generalizing a b ys with
  | nil =>
    obtain rfl : ys = [] := List.length_eq_zero_iff.mp hlen.symm
    exact ⟨h, rfl⟩
  | cons x xs ih =>
    cases ys with
    | nil => cases hlen
    | cons y ys =>
      obtain ⟨hhead, rfl⟩ := ih (Nat.succ.inj hlen)
        (fun s hs => hxs s (List.mem_cons_of_mem x hs))
        (fun s hs => hys s (List.mem_cons_of_mem y hs)) h
      obtain ⟨rfl, rfl⟩ := append_sep_inj_right (hxs x List.mem_cons_self)
        (hys y List.mem_cons_self) hhead
      exact ⟨rfl, rfl⟩

end Segments

/-! ## Numbers as segments -/

theorem Nat.toList_toString (n : Nat) : (toString n).toList = Nat.toDigits 10 n := Nat.toList_repr

theorem Nat.toString_inj {m n : Nat} (h : toString m = toString n) : m = n := by
  have hdigits := congrArg String.toList h
  rw [Nat.toList_toString, Nat.toList_toString] at hdigits
  have hm : Nat.ofDigitChars 10 (Nat.toDigits 10 m) 0 = m :=
    Nat.ofDigitChars_toDigits (by decide) (by decide)
  have hn : Nat.ofDigitChars 10 (Nat.toDigits 10 n) 0 = n :=
    Nat.ofDigitChars_toDigits (by decide) (by decide)
  rw [← hm, ← hn, hdigits]

/-- A number has only digits. -/
theorem Nat.notMem_toString {c : Char} (hc : c.isDigit = false) (n : Nat) :
    c ∉ (toString n).toList := by
  intro hmem
  rw [Nat.toList_toString] at hmem
  have hdigit := Nat.isDigit_of_mem_toDigits (by decide) (by decide) hmem
  rw [hc] at hdigit
  cases hdigit

theorem Int.notMem_toString {c : Char} (hdigit : c.isDigit = false) (hminus : c ≠ '-') (n : Int) :
    c ∉ (toString n).toList := by
  cases n with
  | ofNat n => exact Nat.notMem_toString hdigit n
  | negSucc n =>
    show c ∉ ("-" ++ toString (n + 1)).toList
    rw [String.toList_append]
    intro hmem
    cases List.mem_append.mp hmem with
    | inl hmem =>
      have hc : c = '-' := by simpa using hmem
      exact hminus hc
    | inr hmem => exact Nat.notMem_toString hdigit (n + 1) hmem

/-- A text in three parts, the middle one spelled out. -/
theorem String.toList_append_sep (a sep s : String) (l : List Char) (h : sep.toList = l) :
    (a ++ sep ++ s).toList = a.toList ++ (l ++ s.toList) := by
  rw [String.toList_append, String.toList_append, List.append_assoc, h]
