import Mathlib.Data.List.Sort

/-!
# The first match after a stable sort

A list is sorted stably by a total preorder and searched for the first entry with a property. What
the search finds is described without the sort: no match comes before it in the order, and it is the
first in the list of those that come as early.

- `find?_insertionSort_eq_some`: what the search finds
- `find?_insertionSort_congr`: lists whose ties are in the same order
- `find?_insertionSort_of_filter`: lists with the same matches
-/

universe u

namespace FirstMatch

section

variable {α : Type u} (r : α → α → Prop) [DecidableRel r] (p : α → Bool)

/-- No match comes before `a`, and of those that come as early as `a` it is the first one. -/
structure IsFirst (l : List α) (a : α) : Prop where
  least : ∀ b ∈ l, p b = true → r a b
  first : l.find? (fun b => p b && decide (r b a)) = some a

end

section

variable {α : Type u} {r : α → α → Prop} [DecidableRel r] {p : α → Bool} {l l' : List α} {a : α}

theorem IsFirst.holds (h : IsFirst r p l a) : p a = true := by
  have hfound := List.find?_some h.first
  simp only [Bool.and_eq_true] at hfound
  exact hfound.1

theorem IsFirst.mem (h : IsFirst r p l a) : a ∈ l := List.mem_of_find?_eq_some h.first

theorem find?_congr {q : α → Bool} (h : ∀ b ∈ l, p b = q b) : l.find? p = l.find? q := by
  induction l with
  | nil => rfl
  | cons b l ih =>
    rw [List.find?_cons, List.find?_cons, h b List.mem_cons_self,
      ih fun c hc => h c (List.mem_cons_of_mem _ hc)]

/-- The first match after an entry has been inserted into a sorted list. -/
theorem find?_orderedInsert [IsTrans α r] (x : α) {s : List α} (hs : s.Pairwise r) :
    (s.orderedInsert r x).find? p =
      if p x then
        match s.find? p with
        | some a => if r x a then some x else some a
        | none => some x
      else s.find? p := by
  induction s with
  | nil => cases hpx : p x <;> simp [hpx]
  | cons b s ih =>
    obtain ⟨hb, hs⟩ := List.pairwise_cons.mp hs
    rw [List.orderedInsert_cons]
    split
    · next hxb =>
      -- `x` comes before all the others
      have hbefore : ∀ a, (b :: s).find? p = some a → r x a := by
        intro a ha
        rcases List.mem_cons.mp (List.mem_of_find?_eq_some ha) with rfl | hmem
        · exact hxb
        · exact IsTrans.trans _ _ _ hxb (hb a hmem)
      rw [List.find?_cons]
      cases hpx : p x with
      | false => simp
      | true =>
        cases hfound : (b :: s).find? p with
        | none => simp
        | some a => simp [hbefore a hfound]
    · next hxb =>
      rw [List.find?_cons, List.find?_cons, ih hs]
      cases hpb : p b with
      | false => rfl
      | true =>
        cases hpx : p x with
        | false => simp
        | true => simp [hxb]

variable [Std.Total r] [IsTrans α r]

theorem isFirst_of_find? (h : (l.insertionSort r).find? p = some a) : IsFirst r p l a := by
  have hrefl : ∀ b : α, r b b := fun b => (Std.Total.total b b).elim id id
  induction l generalizing a with
  | nil => cases h
  | cons x l ih =>
    rw [List.insertionSort_cons, find?_orderedInsert x (List.pairwise_insertionSort r l)] at h
    cases hpx : p x with
    | false =>
      rw [hpx] at h
      have hfirst := ih h
      constructor
      · intro b hb hpb
        rcases List.mem_cons.mp hb with rfl | hb
        · rw [hpx] at hpb
          cases hpb
        · exact hfirst.least b hb hpb
      · rw [List.find?_cons, hpx]
        exact hfirst.first
    | true =>
      rw [hpx, if_pos rfl] at h
      cases hfound : (l.insertionSort r).find? p with
      | none =>
        rw [hfound] at h
        cases h
        constructor
        · intro b hb hpb
          rcases List.mem_cons.mp hb with rfl | hb
          · exact hrefl b
          · have hnot := List.find?_eq_none.mp hfound b ((List.mem_insertionSort r).mpr hb)
            exact absurd hpb hnot
        · simp [hpx, hrefl]
      | some c =>
        have hfirst := ih hfound
        rw [hfound] at h
        simp only at h
        split at h
        · next hxc =>
          cases h
          constructor
          · intro b hb hpb
            rcases List.mem_cons.mp hb with rfl | hb
            · exact hrefl b
            · exact IsTrans.trans _ _ _ hxc (hfirst.least b hb hpb)
          · simp [hpx, hrefl]
        · next hxc =>
          obtain rfl := Option.some.inj h
          constructor
          · intro b hb hpb
            rcases List.mem_cons.mp hb with rfl | hb
            · exact (Std.Total.total c b).elim id fun hbc => absurd hbc hxc
            · exact hfirst.least b hb hpb
          · rw [List.find?_cons]
            simp only [hpx, hxc, decide_false, Bool.and_false]
            exact hfirst.first

omit [Std.Total r] in
theorem IsFirst.unique {b : α} (h : IsFirst r p l a) (h' : IsFirst r p l b) : a = b := by
  have hab := h.least b h'.mem h'.holds
  have hba := h'.least a h.mem h.holds
  have hsame : ∀ c ∈ l, (p c && decide (r c a)) = (p c && decide (r c b)) := by
    intro c _
    have hiff : r c a ↔ r c b := ⟨fun hca => IsTrans.trans _ _ _ hca hab, fun hcb => IsTrans.trans _ _ _ hcb hba⟩
    simp [hiff]
  have hfirst := h.first
  rw [find?_congr hsame, h'.first] at hfirst
  exact (Option.some.inj hfirst).symm

/-- What the search of a sorted list finds. -/
theorem find?_insertionSort_eq_some :
    (l.insertionSort r).find? p = some a ↔ IsFirst r p l a := by
  constructor
  · exact isFirst_of_find?
  · intro h
    cases hfound : (l.insertionSort r).find? p with
    | none =>
      have hnot := List.find?_eq_none.mp hfound a ((List.mem_insertionSort r).mpr h.mem)
      exact absurd h.holds hnot
    | some b => rw [(isFirst_of_find? hfound).unique h]

omit [Std.Total r] [IsTrans α r] in
theorem find?_insertionSort_eq_none :
    (l.insertionSort r).find? p = none ↔ ∀ b ∈ l, p b = false := by
  simp [List.find?_eq_none, List.mem_insertionSort]

/-! ## Lists that are searched alike -/

omit [IsTrans α r] in
/-- The entries of each rank are the same, in the same order. -/
theorem IsFirst.of_ties (h : ∀ b, (l.filter fun c => decide (r b c) && decide (r c b)) =
      l'.filter fun c => decide (r b c) && decide (r c b)) (hfirst : IsFirst r p l a) :
    IsFirst r p l' a := by
  have hmem : ∀ b ∈ l', b ∈ l := by
    intro b hb
    have hrefl : r b b := (Std.Total.total b b).elim id id
    have hin : b ∈ l'.filter fun c => decide (r b c) && decide (r c b) :=
      List.mem_filter.mpr ⟨hb, by simp [hrefl]⟩
    rw [← h b] at hin
    exact (List.mem_filter.mp hin).1
  -- of the matches only those that tie with `a` come as early
  have hties : ∀ m : List α, (∀ b ∈ m, b ∈ l) → m.find? (fun b => p b && decide (r b a)) =
      (m.filter fun c => decide (r a c) && decide (r c a)).find? p := by
    intro m hm
    rw [List.find?_filter]
    apply find?_congr
    intro b hb
    cases hpb : p b with
    | false => simp
    | true => simp [hfirst.least b (hm b hb) hpb]
  constructor
  · intro b hb hpb
    exact hfirst.least b (hmem b hb) hpb
  · rw [hties l' hmem, ← h a, ← hties l fun _ hb => hb]
    exact hfirst.first

theorem find?_insertionSort_congr (h : ∀ b, (l.filter fun c => decide (r b c) && decide (r c b)) =
      l'.filter fun c => decide (r b c) && decide (r c b)) :
    (l.insertionSort r).find? p = (l'.insertionSort r).find? p := by
  ext a
  rw [find?_insertionSort_eq_some, find?_insertionSort_eq_some]
  exact ⟨.of_ties h, .of_ties fun b => (h b).symm⟩

omit [Std.Total r] in
/-- In a permutation of a list without ties the entries of each rank are in the same order. -/
theorem filter_eq_of_perm (h : l.Perm l') (hdistinct : l.Pairwise fun b c => ¬(r b c ∧ r c b))
    (b : α) : (l.filter fun c => decide (r b c) && decide (r c b)) =
      l'.filter fun c => decide (r b c) && decide (r c b) := by
  have hperm := h.filter fun c => decide (r b c) && decide (r c b)
  have hapart := hdistinct.filter fun c => decide (r b c) && decide (r c b)
  have hties : ∀ c ∈ l.filter (fun c => decide (r b c) && decide (r c b)), r b c ∧ r c b := by
    intro c hc
    simpa using (List.mem_filter.mp hc).2
  generalize l.filter (fun c => decide (r b c) && decide (r c b)) = m at *
  rcases m with _ | ⟨c, _ | ⟨d, m⟩⟩
  · exact (List.nil_perm.mp hperm).symm
  · exact (List.perm_singleton.mp hperm.symm).symm
  · have hc := hties c (by simp)
    have hd := hties d (by simp)
    have hcd := (List.pairwise_cons.mp hapart).1 d (by simp)
    exact absurd ⟨IsTrans.trans _ _ _ hc.2 hd.1, IsTrans.trans _ _ _ hd.2 hc.1⟩ hcd

theorem find?_insertionSort_of_filter (h : l.filter p = l'.filter p) :
    (l.insertionSort r).find? p = (l'.insertionSort r).find? p := by
  have hback : ∀ m m' : List α, m.filter p = m'.filter p → ∀ a, IsFirst r p m a →
      IsFirst r p m' a := by
    intro m m' h a hfirst
    constructor
    · intro b hb hpb
      have hin : b ∈ m.filter p := h ▸ List.mem_filter.mpr ⟨hb, hpb⟩
      exact hfirst.least b (List.mem_filter.mp hin).1 hpb
    · have hmatches : ∀ k : List α, k.find? (fun b => p b && decide (r b a)) =
          (k.filter p).find? fun b => decide (r b a) := by
        intro k
        rw [List.find?_filter]
        apply find?_congr
        simp
      rw [hmatches, ← h, ← hmatches]
      exact hfirst.first
  ext a
  rw [find?_insertionSort_eq_some, find?_insertionSort_eq_some]
  exact ⟨hback l l' h a, hback l' l h.symm a⟩

end

end FirstMatch
