import Mathlib.Data.List.Basic

/-!
# Following the cursor of a paged answer

A client asks for a page, and for another one with the cursor that came with it, until a page has
no cursor. When each page is a slice of the list that its answer is cut from, and its cursor says
where the slice ends, the client gets to the end.

- `Slices.exists_followed`: it ends when there is a bound on the lists
- `Slices.flatMap_items`: the pages cut from one list make up the list
- `Followed.exists_fetch`: every page is the answer to some question
-/

namespace Paging

variable {κ β α : Type*}

/-- The pages from the `n`-th on: `fetch n cursor` is the `n`-th answer, `next` its cursor. -/
inductive Followed (fetch : Nat → Option κ → β) (next : β → Option κ) :
    Nat → Option κ → List β → Prop
  | last {n : Nat} {cursor : Option κ} (h : next (fetch n cursor) = none) :
      Followed fetch next n cursor [fetch n cursor]
  | more {n : Nat} {cursor : Option κ} {c : κ} {pages : List β}
      (h : next (fetch n cursor) = some c) (rest : Followed fetch next (n + 1) (some c) pages) :
      Followed fetch next n cursor (fetch n cursor :: pages)

/-- The `n`-th answer is the slice of `list n` that begins at the cursor's offset, and has a cursor
    for the end of the slice when the list goes on there. -/
structure Slices (fetch : Nat → Option κ → β) (next : β → Option κ) (items : β → List α)
    (offset : Option κ → Nat) (limit : Nat) (list : Nat → List α) : Prop where
  items_eq : ∀ n cursor, items (fetch n cursor) = ((list n).drop (offset cursor)).take limit
  next_eq_none : ∀ n cursor, next (fetch n cursor) = none →
    (list n).length ≤ offset cursor + limit
  next_eq_some : ∀ n cursor c, next (fetch n cursor) = some c →
    offset (some c) = offset cursor + limit ∧ offset cursor + limit < (list n).length

variable {fetch : Nat → Option κ → β} {next : β → Option κ} {items : β → List α}
  {offset : Option κ → Nat} {limit : Nat} {list : Nat → List α}

theorem Followed.exists_fetch {n : Nat} {cursor : Option κ} {pages : List β}
    (h : Followed fetch next n cursor pages) {page : β} (hpage : page ∈ pages) :
    ∃ m d, page = fetch m d := by
  induction h with
  | last => exact ⟨_, _, List.mem_singleton.mp hpage⟩
  | more _ _ ih =>
    obtain rfl | hrest := List.mem_cons.mp hpage
    · exact ⟨_, _, rfl⟩
    · exact ih hrest

/-- The offset grows by the limit, so that it passes every bound. -/
theorem Slices.exists_followed (h : Slices fetch next items offset limit list)
    (hlimit : 0 < limit) {bound : Nat} (hbound : ∀ n, (list n).length ≤ bound) (n : Nat)
    (cursor : Option κ) : ∃ pages, Followed fetch next n cursor pages := by
  induction hk : bound - offset cursor using Nat.strongRecOn generalizing n cursor with
  | ind k ih =>
    cases hnext : next (fetch n cursor) with
    | none => exact ⟨_, .last hnext⟩
    | some c =>
      obtain ⟨hoffset, hlt⟩ := h.next_eq_some n cursor c hnext
      have hle := hbound n
      obtain ⟨pages, hpages⟩ := ih (bound - offset (some c)) (by omega) (n + 1) (some c) rfl
      exact ⟨_, .more hnext hpages⟩

theorem Slices.flatMap_items (h : Slices fetch next items offset limit list) {l : List α}
    (hsame : ∀ n, list n = l) {n : Nat} {cursor : Option κ} {pages : List β}
    (hpages : Followed fetch next n cursor pages) :
    pages.flatMap items = l.drop (offset cursor) := by
  induction hpages with
  | @last n cursor hnext =>
    have hle := h.next_eq_none n cursor hnext
    rw [hsame n] at hle
    rw [List.flatMap_singleton, h.items_eq, hsame n]
    exact List.take_of_length_le (by rw [List.length_drop]; omega)
  | @more n cursor c pages hnext _ ih =>
    obtain ⟨hoffset, _⟩ := h.next_eq_some n cursor c hnext
    rw [List.flatMap_cons, ih, h.items_eq, hsame n, hoffset, ← List.drop_drop]
    exact List.take_append_drop limit (l.drop (offset cursor))

end Paging
