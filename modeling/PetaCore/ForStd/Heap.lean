import Mathlib.Data.List.Basic
import PetaCore.ForStd.Dict

/-!
# Objects held by reference

A heap of mutable objects and dictionaries of references to them, for code that hands out
objects by reference and later writes through what it was given.

- `Heap.assignNew`: a loop that stores a new object under each of a list of names
- `Heap.modifyAll`: a loop that modifies the objects which a dictionary holds under the
  names of another one
- `Heap.Separate`: no object is held under two names

For each loop there is one lemma for the objects it writes and one for those it leaves
alone.
-/

universe u v

/-- The address of an object. -/
abbrev Ref := Nat

/-- Mutable objects by address. -/
abbrev Heap (α : Type u) := List α

namespace Heap

variable {α : Type u} {β : Type v}

/-- The object at an address. -/
def read [Inhabited α] (h : Heap α) (r : Ref) : α := h.getD r default

/-- A new object. -/
def alloc (h : Heap α) (a : α) : Heap α × Ref := (h ++ [a], h.length)

/-- Write to the object at an address. -/
def modify (h : Heap α) (r : Ref) (f : α → α) : Heap α := List.modify h r f

theorem read_alloc_of_lt [Inhabited α] (h : Heap α) (a : α) {r : Ref} (hr : r < h.length) :
    (h.alloc a).1.read r = h.read r := by
  simp only [read, alloc, List.getD_eq_getElem?_getD]
  rw [List.getElem?_append_left hr]

theorem read_alloc_self [Inhabited α] (h : Heap α) (a : α) : (h.alloc a).1.read (h.alloc a).2 = a := by
  simp [read, alloc]

theorem length_alloc (h : Heap α) (a : α) : (h.alloc a).1.length = h.length + 1 := by
  simp [alloc]

theorem read_modify_self [Inhabited α] (h : Heap α) {r : Ref} (f : α → α) (hr : r < h.length) :
    (h.modify r f).read r = f (h.read r) := by
  simp [read, modify, List.getD_eq_getElem?_getD, hr]

theorem read_modify_ne [Inhabited α] (h : Heap α) {r r' : Ref} (f : α → α) (hne : r' ≠ r) :
    (h.modify r f).read r' = h.read r' := by
  simp [read, modify, List.getD_eq_getElem?_getD, Ne.symm hne]

@[simp] theorem length_modify (h : Heap α) (r : Ref) (f : α → α) :
    (h.modify r f).length = h.length := by
  simp [modify]

/-! ## New objects under names -/

/-- Store a new object under each name in turn: `d[name] = { ... }`. -/
def assignNew (h : Heap α) (d : Dict Ref) : List (String × α) → Heap α × Dict Ref
  | [] => (h, d)
  | (name, a) :: l => assignNew (h.alloc a).1 (d.set name (h.alloc a).2) l

/-- Modify the objects held under the names of `l`, where `f` says how. -/
def modifyAll (h : Heap α) (d : Dict Ref) (f : β → Option (α → α)) :
    List (String × β) → Heap α
  | [] => h
  | (name, b) :: l =>
    match f b, d.get? name with
    | some g, some r => modifyAll (h.modify r g) d f l
    | _, _ => modifyAll h d f l

/-- No object is held under two names. -/
def Separate (d : Dict Ref) : Prop :=
  ∀ name name' r, d.get? name = some r → d.get? name' = some r → name = name'

/-- Every object held exists. -/
def Holds (h : Heap α) (d : Dict Ref) : Prop := ∀ name r, d.get? name = some r → r < h.length

theorem length_le_assignNew (h : Heap α) (d : Dict Ref) (l : List (String × α)) :
    h.length ≤ (assignNew h d l).1.length := by
  induction l generalizing h d with
  | nil => exact Nat.le_refl _
  | cons e l ih =>
    obtain ⟨name, a⟩ := e
    have := ih (h.alloc a).1 (d.set name (h.alloc a).2)
    rw [length_alloc] at this
    simp only [assignNew]
    omega

/-- Objects that exist before are left alone. -/
theorem read_assignNew_of_lt [Inhabited α] (h : Heap α) (d : Dict Ref) (l : List (String × α)) {r : Ref}
    (hr : r < h.length) : (assignNew h d l).1.read r = h.read r := by
  induction l generalizing h d with
  | nil => rfl
  | cons e l ih =>
    obtain ⟨name, a⟩ := e
    have hlt : r < (h.alloc a).1.length := by
      rw [length_alloc]
      exact Nat.lt_succ_of_lt hr
    simp only [assignNew]
    rw [ih (h.alloc a).1 _ hlt, read_alloc_of_lt h a hr]

/-- What is held in the end was held before or is new. -/
theorem get?_assignNew (h : Heap α) (d : Dict Ref) (l : List (String × α)) {name : String}
    {r : Ref} (hr : (assignNew h d l).2.get? name = some r) :
    d.get? name = some r ∨ (h.length ≤ r ∧ r < (assignNew h d l).1.length) := by
  induction l generalizing h d with
  | nil => exact Or.inl hr
  | cons e l ih =>
    obtain ⟨name', a⟩ := e
    have hlen := length_le_assignNew (h.alloc a).1 (d.set name' (h.alloc a).2) l
    simp only [assignNew] at hr ⊢
    rw [length_alloc] at hlen
    rcases ih (h.alloc a).1 (d.set name' (h.alloc a).2) hr with hold | ⟨hge, hlt⟩
    · rw [Dict.get?_set] at hold
      split at hold
      · cases hold
        refine Or.inr ⟨Nat.le_refl _, ?_⟩
        show h.length < _
        omega
      · exact Or.inl hold
    · rw [length_alloc] at hge
      exact Or.inr ⟨by omega, hlt⟩

theorem Holds.set_alloc {h : Heap α} {d : Dict Ref} (hd : h.Holds d) (a : α) (name : String) :
    (h.alloc a).1.Holds (d.set name (h.alloc a).2) := by
  intro n r hr
  rw [Dict.get?_set] at hr
  rw [length_alloc]
  split at hr
  · cases hr
    exact Nat.lt_succ_self _
  · exact Nat.lt_succ_of_lt (hd n r hr)

theorem separate_assignNew (h : Heap α) (d : Dict Ref) (l : List (String × α))
    (hd : h.Holds d) (hsep : Separate d) : Separate (assignNew h d l).2 := by
  induction l generalizing h d with
  | nil => exact hsep
  | cons e l ih =>
    obtain ⟨name, a⟩ := e
    refine ih (h.alloc a).1 (d.set name (h.alloc a).2) (hd.set_alloc a name) ?_
    -- the new address is not held under any other name
    have hfresh : ∀ n, d.get? n ≠ some (h.alloc a).2 := by
      intro n hn
      exact absurd (hd n _ hn) (Nat.lt_irrefl _)
    intro n n' r hn hn'
    rw [Dict.get?_set] at hn hn'
    split at hn
    · rename_i heq
      split at hn'
      · rename_i heq'
        rw [heq, heq']
      · rw [← hn] at hn'
        exact absurd hn' (hfresh n')
    · split at hn'
      · rw [← hn'] at hn
        exact absurd hn (hfresh n)
      · exact hsep n n' r hn hn'

/-- The objects held in the end, by value. -/
theorem map_read_assignNew [Inhabited α] (h : Heap α) (d : Dict Ref) (l : List (String × α))
    (hd : h.Holds d) :
    (assignNew h d l).2.map (assignNew h d l).1.read = (d.map h.read).setAll l := by
  induction l generalizing h d with
  | nil => rfl
  | cons e l ih =>
    obtain ⟨name, a⟩ := e
    have hd' : (h.alloc a).1.Holds (d.set name (h.alloc a).2) := hd.set_alloc a name
    have hold : d.map (h.alloc a).1.read = d.map h.read := by
      refine Dict.map_congr ?_
      intro k r hr
      exact read_alloc_of_lt h a (hd k r hr)
    simp only [assignNew]
    rw [ih (h.alloc a).1 _ hd', Dict.map_set, read_alloc_self, hold]
    rfl

/-- `d` holds the values `v` in `h'`, which has the objects of `h` and possibly more. The
    objects of `d` are new, or old ones as `own` says. -/
structure Made [Inhabited α] (h : Heap α) (own : String → Ref → Prop) (v : Dict α)
    (h' : Heap α) (d : Dict Ref) : Prop where
  grows : h.length ≤ h'.length
  frame : ∀ r, r < h.length → h'.read r = h.read r
  separate : Separate d
  origin : ∀ name r, d.get? name = some r →
    (own name r ∧ r < h.length) ∨ (h.length ≤ r ∧ r < h'.length)
  gives : ∀ name r, own name r → d.get? name = some r
  values : d.map h'.read = v

theorem made_assignNew [Inhabited α] (h : Heap α) (l : List (String × α)) :
    Made h (fun _ _ => False) (Dict.ofList l) (assignNew h .empty l).1
      (assignNew h .empty l).2 where
  grows := length_le_assignNew h .empty l
  frame := fun _ hr => read_assignNew_of_lt h .empty l hr
  separate := separate_assignNew h .empty l (fun _ _ hr => by cases hr) (fun _ _ _ hr => by cases hr)
  origin := by
    intro name r hr
    rcases get?_assignNew h .empty l hr with hold | hnew
    · cases hold
    · exact Or.inr hnew
  gives := fun _ _ ho => by cases ho
  values := map_read_assignNew h .empty l (fun _ _ hr => by cases hr)

theorem made_self [Inhabited α] {h : Heap α} {d : Dict Ref} (hd : h.Holds d)
    (hsep : Separate d) : Made h (fun name r => d.get? name = some r) (d.map h.read) h d where
  grows := Nat.le_refl _
  frame := fun _ _ => rfl
  separate := hsep
  origin := fun name r hr => Or.inl ⟨hr, hd name r hr⟩
  gives := fun _ _ hr => hr
  values := rfl

/-! ## Writes through a dictionary -/

@[simp] theorem length_modifyAll (h : Heap α) (d : Dict Ref) (f : β → Option (α → α))
    (l : List (String × β)) : (modifyAll h d f l).length = h.length := by
  induction l generalizing h with
  | nil => rfl
  | cons e l ih =>
    obtain ⟨name, b⟩ := e
    simp only [modifyAll]
    split
    · rw [ih, length_modify]
    · exact ih h

/-- An object that is held under none of the names is left alone. -/
theorem read_modifyAll_of_ne [Inhabited α] (h : Heap α) (d : Dict Ref) (f : β → Option (α → α))
    (l : List (String × β)) {r : Ref}
    (hne : ∀ e ∈ l, (f e.2).isSome → d.get? e.1 ≠ some r) :
    (modifyAll h d f l).read r = h.read r := by
  induction l generalizing h with
  | nil => rfl
  | cons e l ih =>
    obtain ⟨name, b⟩ := e
    have hl := fun h => ih h fun e he => hne e (List.mem_cons_of_mem _ he)
    simp only [modifyAll]
    split
    · rename_i g r' hg hr'
      have hrr' : r ≠ r' := by
        rintro rfl
        exact hne (name, b) List.mem_cons_self (by simp [hg]) hr'
      rw [hl, read_modify_ne h g hrr']
    · exact hl h

/-- An object is modified as the entry for its name says. -/
theorem read_modifyAll [Inhabited α] (h : Heap α) (d : Dict Ref) (f : β → Option (α → α)) (o : Dict β)
    (hsep : Separate d) {name : String} {r : Ref} (hr : d.get? name = some r)
    (hlt : r < h.length) :
    (modifyAll h d f o.entries).read r = (((o.get? name).bind f).getD id) (h.read r) := by
  obtain ⟨entries, hnodup⟩ := o
  simp only [Dict.get?]
  induction entries generalizing h with
  | nil => rfl
  | cons e l ih =>
    obtain ⟨name', b⟩ := e
    rw [List.map_cons] at hnodup
    obtain ⟨hnot, hl⟩ := List.nodup_cons.mp hnodup
    by_cases heq : name = name'
    · subst heq
      -- the later entries are for other names
      have hrest : ∀ h' : Heap α, (modifyAll h' d f l).read r = h'.read r := by
        intro h'
        refine read_modifyAll_of_ne h' d f l ?_
        intro e he _ hget
        have hname := hsep e.1 name r hget hr
        exact hnot (List.mem_map.mpr ⟨e, he, hname⟩)
      simp only [modifyAll, List.lookup_cons_self, Option.bind_some, hr]
      cases hf : f b with
      | none => exact hrest h
      | some g =>
        simp only [hrest, Option.getD_some]
        exact read_modify_self h g hlt
    · simp only [modifyAll, List.lookup_cons, beq_false_of_ne heq]
      split
      · rename_i g r' hg hr'
        have hrr' : r ≠ r' := by
          rintro rfl
          exact heq (hsep name name' r hr hr')
        rw [ih (h.modify r' g) (by rw [length_modify]; exact hlt) hl, read_modify_ne h g hrr']
      · exact ih h hlt hl

end Heap
