import Mathlib.Data.List.Basic

/-!
# Tables that number their entries

A `Table α` gives each entry that is added the next number, so that an entry added later has
the greater one, and a number is not used again after its entry has been erased.

- `get?_add`, `get?_put`, `get?_erase`, `get?_eraseIf`, `get?_map`: what each operation does to every number
- `get?_addAll`: the entries of a list, one after another
- `any_eq_true`, `of_any_not`: a search of the entries
-/

universe u v

/-- A table of entries numbered in the order in which they were added. -/
structure Table (α : Type u) where
  slots : List (Option α)
deriving DecidableEq

namespace Table

variable {α : Type u} {β : Type v}

def empty : Table α := ⟨[]⟩

/-- The number of the next entry. -/
def next (t : Table α) : Nat := t.slots.length

def get? (t : Table α) (i : Nat) : Option α := t.slots[i]?.join

/-- The table with one more entry, which has the number `t.next`. -/
def add (t : Table α) (a : α) : Table α := ⟨t.slots ++ [some a]⟩

/-- The table with one more entry for each item of a list. -/
def addAll (t : Table α) (l : List α) : Table α := l.foldl add t

/-- The table with the entry of a number that has been given out replaced. -/
def put (t : Table α) (i : Nat) (a : α) : Table α := ⟨t.slots.set i (some a)⟩

def erase (t : Table α) (i : Nat) : Table α := ⟨t.slots.set i none⟩

/-- The table without the entries that have the property `p`. -/
def eraseIf (t : Table α) (p : α → Bool) : Table α := ⟨t.slots.map (Option.filter fun a => !p a)⟩

def map (f : α → β) (t : Table α) : Table β := ⟨t.slots.map (Option.map f)⟩

/-- The first entry that has the property `p`. -/
def find? (t : Table α) (p : α → Bool) : Option α := t.slots.findSome? (Option.filter p)

/-- Whether an entry has the property `p`. -/
def any (t : Table α) (p : Nat → α → Bool) : Bool :=
  t.slots.zipIdx.any fun e => e.1.any (p e.2)

@[simp] theorem get?_empty (i : Nat) : (empty : Table α).get? i = none := by
  simp [empty, get?]

variable {i : Nat} {t : Table α} {a : α}

theorem lt_next_of_get? (h : t.get? i = some a) :
    i < t.next := by
  rw [get?, Option.join_eq_some_iff] at h
  exact (List.getElem?_eq_some_iff.mp h).1

@[simp] theorem next_add (t : Table α) (a : α) : (t.add a).next = t.next + 1 := by
  simp [add, next]

@[simp] theorem next_put (t : Table α) (i : Nat) (a : α) : (t.put i a).next = t.next := by
  simp [put, next]

@[simp] theorem next_erase (t : Table α) (i : Nat) : (t.erase i).next = t.next := by
  simp [erase, next]

@[simp] theorem next_eraseIf (t : Table α) (p : α → Bool) : (t.eraseIf p).next = t.next := by
  simp [eraseIf, next]

theorem get?_add (t : Table α) (a : α) (i : Nat) :
    (t.add a).get? i = if i = t.next then some a else t.get? i := by
  by_cases h : i = t.next
  · simp [add, get?, next, h]
  · rw [if_neg h]
    simp only [next] at h
    simp only [add, get?]
    rcases Nat.lt_or_ge i t.slots.length with hlt | hge
    · rw [List.getElem?_append_left hlt]
    · rw [List.getElem?_eq_none (by simp; omega), List.getElem?_eq_none hge]

/-- An entry after an addition is the new one, or was there before. -/
theorem get?_add_eq_some {b : α} :
    (t.add a).get? i = some b ↔ (i = t.next ∧ a = b) ∨ t.get? i = some b := by
  rw [get?_add]
  split
  · next heq =>
    subst heq
    constructor
    · intro h
      exact .inl ⟨rfl, Option.some.inj h⟩
    · rintro (⟨_, rfl⟩ | h)
      · rfl
      · have hlt := lt_next_of_get? h
        omega
  · next hne => simp [hne]

@[simp] theorem get?_add_next (t : Table α) (a : α) : (t.add a).get? t.next = some a := by
  rw [get?_add, if_pos rfl]

/-- An addition leaves the entries that were there. -/
theorem get?_add_of_some {b : α} (h : t.get? i = some b) (a : α) :
    (t.add a).get? i = some b := get?_add_eq_some.mpr (.inr h)

theorem get?_addAll {l : List α} :
    (t.addAll l).get? i = some a ↔
      t.get? i = some a ∨ ∃ k, i = t.next + k ∧ l[k]? = some a := by
  induction l generalizing t with
  | nil => simp [addAll]
  | cons b l ih =>
    rw [show t.addAll (b :: l) = (t.add b).addAll l from rfl, ih, get?_add_eq_some, next_add]
    constructor
    · rintro ((⟨rfl, rfl⟩ | h) | ⟨k, rfl, hk⟩)
      · exact .inr ⟨0, by omega, rfl⟩
      · exact .inl h
      · exact .inr ⟨k + 1, by omega, hk⟩
    · rintro (h | ⟨k, rfl, hk⟩)
      · exact .inl (.inr h)
      · cases k with
        | zero =>
          simp only [List.getElem?_cons_zero, Option.some.injEq] at hk
          exact .inl (.inl ⟨by omega, hk⟩)
        | succ k => exact .inr ⟨k, by omega, hk⟩

theorem get?_put {b : α} (h : t.get? i = some b) (a : α) (j : Nat) :
    (t.put i a).get? j = if j = i then some a else t.get? j := by
  have hlt : i < t.slots.length := lt_next_of_get? h
  simp only [put, get?, List.getElem?_set]
  by_cases hji : j = i
  · simp [hji, hlt]
  · simp [hji, Ne.symm hji]

theorem get?_erase (t : Table α) (i j : Nat) :
    (t.erase i).get? j = if j = i then none else t.get? j := by
  simp only [erase, get?, List.getElem?_set]
  by_cases hji : j = i
  · subst hji
    by_cases hlt : j < t.slots.length <;> simp [hlt]
  · simp [hji, Ne.symm hji]

@[simp] theorem get?_map (f : α → β) (t : Table α) (i : Nat) :
    (t.map f).get? i = (t.get? i).map f := by
  simp only [map, get?, List.getElem?_map]
  cases t.slots[i]? with
  | none => rfl
  | some o => cases o <;> rfl

theorem get?_eraseIf (t : Table α) (p : α → Bool) (i : Nat) :
    (t.eraseIf p).get? i = (t.get? i).filter fun a => !p a := by
  simp only [eraseIf, get?, List.getElem?_map]
  cases t.slots[i]? with
  | none => rfl
  | some o => cases o <;> rfl

theorem get?_of_get?_eraseIf {p : α → Bool} (h : (t.eraseIf p).get? i = some a) : t.get? i = some a := by
  rw [get?_eraseIf] at h
  exact (Option.filter_eq_some_iff.mp h).1

/-- An entry that is there after an erasure was there before it. -/
theorem get?_of_get?_erase {j : Nat} (h : (t.erase i).get? j = some a) :
    j ≠ i ∧ t.get? j = some a := by
  rw [get?_erase] at h
  split at h
  · cases h
  · next hji => exact ⟨hji, h⟩

theorem of_eq_erase {t' : Table α} {j : Nat} (ht : t' = t.erase i) (h : t'.get? j = some a) :
    j ≠ i ∧ t.get? j = some a :=
  get?_of_get?_erase (ht ▸ h)

theorem eq_erase_of_ne {t' : Table α} {j : Nat} (ht : t' = t.erase i) (hne : j ≠ i)
    (h : t.get? j = some a) : t'.get? j = some a := by
  rw [ht, get?_erase, if_neg hne]
  exact h

theorem get?_of_find? {p : α → Bool} (h : t.find? p = some a) :
    ∃ i, t.get? i = some a ∧ p a = true := by
  obtain ⟨slot, hslot, hfilter⟩ := List.exists_of_findSome?_eq_some h
  obtain ⟨rfl, hp⟩ := Option.filter_eq_some_iff.mp hfilter
  obtain ⟨i, hi⟩ := List.mem_iff_getElem?.mp hslot
  exact ⟨i, by rw [get?, hi]; rfl, hp⟩

theorem any_eq_true {p : Nat → α → Bool} :
    t.any p = true ↔ ∃ i a, t.get? i = some a ∧ p i a = true := by
  simp only [any, List.any_eq_true, Prod.exists, List.mem_zipIdx_iff_getElem?, get?,
    Option.join_eq_some_iff]
  constructor
  · rintro ⟨o, i, hslot, hp⟩
    cases o with
    | none => cases hp
    | some a => exact ⟨i, a, hslot, hp⟩
  · rintro ⟨i, a, hslot, hp⟩
    exact ⟨some a, i, hslot, by simpa using hp⟩

/-- What no entry fails holds of each entry. -/
theorem of_any_not {p : α → Bool} (h : (t.any fun _ a => !p a) = false)
    (hi : t.get? i = some a) : p a = true := by
  cases hp : p a with
  | true => rfl
  | false =>
    have hany : (t.any fun _ a => !p a) = true := any_eq_true.mpr ⟨i, a, hi, by simp [hp]⟩
    simp [h] at hany

theorem get?_of_any (h : (t.any fun _ _ => true) = false) (i : Nat) :
    t.get? i = none := by
  cases hi : t.get? i with
  | none => rfl
  | some a =>
    have hany : (t.any fun _ _ => true) = true := any_eq_true.mpr ⟨i, a, hi, rfl⟩
    simp [h] at hany

end Table
