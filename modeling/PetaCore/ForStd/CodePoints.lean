import Mathlib.Data.List.Basic

/-!
# Code points of a UTF-16 string

A string is a list of code units. Iteration over it gives its code points: a leading surrogate and
the trailing surrogate after it are one code point, every other code unit is one of its own.

- `split`: the code points, each as its code units
- `split_append`: a string that is cut between two code points
- `split_of_append`: the strings between code points of a string
-/

namespace CodePoints

/-- A leading surrogate. -/
def isHigh (c : Nat) : Bool := decide (0xD800 ≤ c) && decide (c ≤ 0xDBFF)

/-- A trailing surrogate. -/
def isLow (c : Nat) : Bool := decide (0xDC00 ≤ c) && decide (c ≤ 0xDFFF)

/-- The code points of a string. -/
def split : List Nat → List (List Nat)
  | [] => []
  | [c] => [[c]]
  | c :: d :: s => if isHigh c && isLow d then [c, d] :: split s else [c] :: split (d :: s)

variable {c : Nat}

/-- No code unit is both surrogates. -/
theorem isLow_eq_false (h : isHigh c = true) : isLow c = false := by
  simp only [isHigh, Bool.and_eq_true, decide_eq_true_eq] at h
  simp only [isLow, Bool.and_eq_false_iff, decide_eq_false_iff_not]
  omega

@[simp] theorem split_nil : split [] = [] := rfl

theorem split_cons_of_not_high (h : isHigh c = false) (s : List Nat) :
    split (c :: s) = [c] :: split s := by
  cases s with
  | nil => rfl
  | cons d s => simp [split, h]

/-- A pair of surrogates is one code point. -/
theorem split_of_pair {d : Nat} (h : (isHigh c && isLow d) = true) (s : List Nat) :
    split (c :: d :: s) = [c, d] :: split s := if_pos h

theorem split_of_not_pair {d : Nat} (h : ¬(isHigh c && isLow d) = true) (s : List Nat) :
    split (c :: d :: s) = [c] :: split (d :: s) := if_neg h

@[simp] theorem flatten_split (s : List Nat) : (split s).flatten = s := by
  induction s using split.induct with
  | case1 | case2 _ => rfl
  | case3 c d s hpair ih => simp [split_of_pair hpair, ih]
  | case4 c d s hpair ih => simp [split_of_not_pair hpair, ih]

/-- A code point is one code unit or a pair of surrogates. -/
def IsPoint (ch : List Nat) : Prop :=
  (∃ c, ch = [c]) ∨ ∃ h l, ch = [h, l] ∧ isHigh h = true ∧ isLow l = true

variable {s : List Nat}

theorem isPoint_of_mem {ch : List Nat} (h : ch ∈ split s) : IsPoint ch := by
  induction s using split.induct with
  | case1 => cases h
  | case2 c => exact .inl ⟨c, List.mem_singleton.mp h⟩
  | case3 c d s hpair ih =>
    rw [split_of_pair hpair] at h
    cases List.mem_cons.mp h with
    | inl h => exact .inr ⟨c, d, h, Bool.and_eq_true_iff.mp hpair⟩
    | inr h => exact ih h
  | case4 c d s hpair ih =>
    rw [split_of_not_pair hpair] at h
    cases List.mem_cons.mp h with
    | inl h => exact .inl ⟨c, h⟩
    | inr h => exact ih h

/-- What comes after the first code point. -/
theorem split_eq_cons {ch : List Nat} {rest : List (List Nat)} (h : split s = ch :: rest) :
    s = ch ++ rest.flatten ∧ split rest.flatten = rest := by
  have hs : s = ch ++ rest.flatten := by
    rw [← flatten_split s, h, List.flatten_cons]
  refine ⟨hs, ?_⟩
  cases s using split.fun_cases with
  | case1 => cases h
  | case2 c =>
    obtain ⟨rfl, rfl⟩ := List.cons.inj h
    rfl
  | case3 c d s hpair =>
    rw [split_of_pair hpair] at h
    obtain ⟨rfl, rfl⟩ := List.cons.inj h
    rw [flatten_split]
  | case4 c d s hpair =>
    rw [split_of_not_pair hpair] at h
    obtain ⟨rfl, rfl⟩ := List.cons.inj h
    rw [flatten_split]

/-- A part of the code points is the code points of its text. -/
theorem split_of_append {xs ys : List (List Nat)} (h : split s = xs ++ ys) :
    s = xs.flatten ++ ys.flatten ∧ split ys.flatten = ys := by
  induction xs generalizing s with
  | nil =>
    obtain rfl : split s = ys := h
    exact ⟨(flatten_split s).symm, by rw [flatten_split]⟩
  | cons x xs ih =>
    obtain ⟨hs, hrest⟩ := split_eq_cons h
    obtain ⟨hflat, hys⟩ := ih hrest
    exact ⟨by rw [hs, hflat, List.flatten_cons, List.append_assoc], hys⟩

/-- A cut that is not between the two surrogates of a pair. -/
def IsBoundary (s t : List Nat) : Prop :=
  ∀ h l, s.getLast? = some h → t.head? = some l → isHigh h = true → isLow l = false

theorem split_append {t : List Nat} (hcut : IsBoundary s t) :
    split (s ++ t) = split s ++ split t := by
  induction s using split.induct with
  | case1 => rfl
  | case2 c =>
    cases t with
    | nil => rfl
    | cons d t =>
      show split (c :: d :: t) = [c] :: split (d :: t)
      cases hc : isHigh c with
      | false => exact split_cons_of_not_high hc _
      | true => exact split_of_not_pair (by simp [hcut c d rfl rfl hc]) t
  | case3 c d s hpair ih =>
    have hcut' : IsBoundary s t := by
      intro h l hh hl
      apply hcut h l _ hl
      rw [List.getLast?_cons_cons, List.getLast?_cons]
      simp [hh]
    simp [split_of_pair hpair, ih hcut']
  | case4 c d s hpair ih =>
    have hcut' : IsBoundary (d :: s) t := by
      intro h l hh hl
      apply hcut h l _ hl
      rw [List.getLast?_cons_cons]
      exact hh
    simp only [List.cons_append] at ih ⊢
    rw [split_of_not_pair hpair, split_of_not_pair hpair, ih hcut', List.cons_append]

/-- A change of code units that leaves the surrogates what they are. -/
theorem split_map {f : Nat → Nat} (hhigh : ∀ c, isHigh (f c) = isHigh c)
    (hlow : ∀ c, isLow (f c) = isLow c) (s : List Nat) :
    split (s.map f) = (split s).map (List.map f) := by
  induction s using split.induct with
  | case1 | case2 _ => rfl
  | case3 c d s hpair ih =>
    have hpair' : (isHigh (f c) && isLow (f d)) = true := by rw [hhigh, hlow, hpair]
    rw [List.map_cons, List.map_cons, split_of_pair hpair', split_of_pair hpair, ih]
    rfl
  | case4 c d s hpair ih =>
    have hpair' : ¬(isHigh (f c) && isLow (f d)) = true := by rwa [hhigh, hlow]
    rw [List.map_cons] at ih
    rw [List.map_cons, List.map_cons, split_of_not_pair hpair', split_of_not_pair hpair, ih]
    rfl

theorem split_replicate (h : isHigh c = false) (n : Nat) :
    split (List.replicate n c) = List.replicate n [c] := by
  induction n with
  | zero => rfl
  | succ n ih => rw [List.replicate_succ, split_cons_of_not_high h, ih, List.replicate_succ]

/-! ## Strings without pairs, and without single surrogates -/

/-- Whether a string has a code point of two code units. -/
def hasPair (s : List Nat) : Bool := (split s).any fun ch => ch.length == 2

/-- Whether a string has a surrogate that is not part of a pair. -/
def hasLoneSurrogate (s : List Nat) : Bool :=
  (split s).any fun ch => ch.length == 1 && ch.any fun c => isHigh c || isLow c

theorem hasPair_of_not_pair {d : Nat} (h : ¬(isHigh c && isLow d) = true) (s : List Nat) :
    hasPair (c :: d :: s) = hasPair (d :: s) := by
  simp [hasPair, split_of_not_pair h]

theorem split_of_hasPair_eq_false (h : hasPair s = false) :
    split s = s.map fun c => [c] := by
  induction s using split.induct with
  | case1 | case2 _ => rfl
  | case3 c d s hpair ih => simp [hasPair, split_of_pair hpair] at h
  | case4 c d s hpair ih =>
    rw [split_of_not_pair hpair, ih (by rw [← hasPair_of_not_pair hpair, h])]
    rfl

theorem length_split_le (s : List Nat) : (split s).length ≤ s.length := by
  induction s using split.induct with
  | case1 | case2 _ => exact Nat.le_refl _
  | case3 c d s hpair ih =>
    simp only [split_of_pair hpair, List.length_cons]
    omega
  | case4 c d s hpair ih =>
    simp only [split_of_not_pair hpair, List.length_cons] at ih ⊢
    omega

/-- A pair is counted once. -/
theorem length_split_lt (h : hasPair s = true) : (split s).length < s.length := by
  induction s using split.induct with
  | case1 | case2 _ => cases h
  | case3 c d s hpair ih =>
    have hle := length_split_le s
    simp only [split_of_pair hpair, List.length_cons]
    omega
  | case4 c d s hpair ih =>
    have hlt := ih (by rw [← hasPair_of_not_pair hpair, h])
    simp only [split_of_not_pair hpair, List.length_cons] at hlt ⊢
    omega

end CodePoints
