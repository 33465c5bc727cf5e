import Mathlib.Data.List.Nodup

/-!
# Dictionaries in insertion order

A JavaScript object that is used as a dictionary: its own keys with their values, in the
order of insertion. Assigning to a key that exists keeps its place; a new key goes to the
end. Looking up a key is all that the lemmas below speak about.
-/

universe u v

/-- A dictionary: entries with distinct keys. -/
structure Dict (α : Type u) where
  entries : List (String × α)
  nodup : (entries.map Prod.fst).Nodup
deriving DecidableEq

namespace Dict

variable {α : Type u} {β : Type v}

/-- `{}` -/
def empty : Dict α := ⟨[], List.nodup_nil⟩

/-- `d[k]` -/
def get? (d : Dict α) (k : String) : Option α := d.entries.lookup k

/-- The values, in order. -/
def values (d : Dict α) : List α := d.entries.map Prod.snd

/-- Assignment in a list of entries. -/
def setEntry (k : String) (a : α) : List (String × α) → List (String × α)
  | [] => [(k, a)]
  | (k', a') :: l => if k' = k then (k, a) :: l else (k', a') :: setEntry k a l

theorem mem_keys_setEntry (k : String) (a : α) (l : List (String × α)) (k' : String) :
    k' ∈ (setEntry k a l).map Prod.fst ↔ k' = k ∨ k' ∈ l.map Prod.fst := by
  induction l with
  | nil => simp [setEntry]
  | cons e l ih =>
    simp only [setEntry]
    split
    · rename_i heq
      simp [heq]
    · simp only [List.map_cons, List.mem_cons, ih]
      constructor
      all_goals
        rintro (h | h | h)
        · exact .inr (.inl h)
        · exact .inl h
        · exact .inr (.inr h)

theorem nodup_setEntry (k : String) (a : α) (l : List (String × α))
    (h : (l.map Prod.fst).Nodup) : ((setEntry k a l).map Prod.fst).Nodup := by
  induction l with
  | nil => simp [setEntry]
  | cons e l ih =>
    rw [List.map_cons] at h
    obtain ⟨hnot, hl⟩ := List.nodup_cons.mp h
    simp only [setEntry]
    split
    · rename_i heq
      simp only [List.map_cons, ← heq]
      exact List.nodup_cons.mpr ⟨hnot, hl⟩
    · rename_i hne
      simp only [List.map_cons]
      refine List.nodup_cons.mpr ⟨?_, ih hl⟩
      rw [mem_keys_setEntry]
      rintro (heq | hmem)
      · exact hne heq
      · exact hnot hmem

/-- `d[k] = a` -/
def set (d : Dict α) (k : String) (a : α) : Dict α :=
  ⟨setEntry k a d.entries, nodup_setEntry k a d.entries d.nodup⟩

/-- A list of assignments, in order. -/
def setAll (d : Dict α) (l : List (String × α)) : Dict α := l.foldl (fun d e => d.set e.1 e.2) d

/-- The dictionary of a list of assignments. -/
def ofList (l : List (String × α)) : Dict α := empty.setAll l

/-- `Object.assign(d, o)` -/
def assign (d o : Dict α) : Dict α := d.setAll o.entries

/-- The dictionary with every value replaced, depending on its key. -/
def mapKeyed (f : String → α → β) (d : Dict α) : Dict β :=
  ⟨d.entries.map fun e => (e.1, f e.1 e.2), by
    have hkeys : (d.entries.map fun e => (e.1, f e.1 e.2)).map Prod.fst =
        d.entries.map Prod.fst := by
      rw [List.map_map]
      rfl
    rw [hkeys]
    exact d.nodup⟩

/-- The dictionary with every value replaced. -/
def map (f : α → β) (d : Dict α) : Dict β := d.mapKeyed fun _ a => f a

/-- `delete d[k]` for every key whose value does not satisfy `p`. -/
def filter (p : α → Bool) (d : Dict α) : Dict α :=
  ⟨d.entries.filter fun e => p e.2, d.nodup.sublist ((List.filter_sublist).map Prod.fst)⟩

/-- `delete d[k]` for every entry that does not satisfy `p`. -/
def filterKeyed (p : String → α → Bool) (d : Dict α) : Dict α :=
  ⟨d.entries.filter fun e => p e.1 e.2, d.nodup.sublist ((List.filter_sublist).map Prod.fst)⟩

/-- `delete d[k]` -/
def erase (d : Dict α) (k : String) : Dict α :=
  ⟨d.entries.filter fun e => e.1 != k, d.nodup.sublist ((List.filter_sublist).map Prod.fst)⟩

/-! ## Lookup -/

@[simp] theorem get?_empty (k : String) : (empty : Dict α).get? k = none := rfl

theorem lookup_setEntry (k : String) (a : α) (l : List (String × α)) (k' : String) :
    (setEntry k a l).lookup k' = if k' = k then some a else l.lookup k' := by
  induction l with
  | nil =>
    by_cases h : k' = k
    · simp [setEntry, h]
    · simp [setEntry, List.lookup_cons, h, beq_false_of_ne h]
  | cons e l ih =>
    obtain ⟨ek, ea⟩ := e
    simp only [setEntry]
    by_cases hek : ek = k
    · subst hek
      rw [if_pos rfl]
      by_cases h : k' = ek
      · subst h
        simp
      · simp [List.lookup_cons, h, beq_false_of_ne h]
    · rw [if_neg hek]
      by_cases h : k' = ek
      · subst h
        simp [hek]
      · simp only [List.lookup_cons, beq_false_of_ne h]
        exact ih

theorem get?_set (d : Dict α) (k : String) (a : α) (k' : String) :
    (d.set k a).get? k' = if k' = k then some a else d.get? k' :=
  lookup_setEntry k a d.entries k'

@[simp] theorem get?_set_self (d : Dict α) (k : String) (a : α) :
    (d.set k a).get? k = some a := by
  rw [get?_set, if_pos rfl]

variable {k : String}

theorem get?_set_ne (d : Dict α) {k' : String} (a : α) (h : k' ≠ k) :
    (d.set k a).get? k' = d.get? k' := by
  rw [get?_set, if_neg h]

/-- An entry is found under its key. -/
theorem mem_entries (d : Dict α) (k : String) (a : α) :
    (k, a) ∈ d.entries ↔ d.get? k = some a := by
  obtain ⟨entries, hnodup⟩ := d
  simp only [get?]
  induction entries with
  | nil => simp
  | cons e l ih =>
    obtain ⟨ek, ea⟩ := e
    rw [List.map_cons] at hnodup
    obtain ⟨hnot, hl⟩ := List.nodup_cons.mp hnodup
    by_cases h : k = ek
    · subst h
      have habsent : ∀ a', (k, a') ∉ l := by
        intro a' hmem
        exact hnot (List.mem_map.mpr ⟨(k, a'), hmem, rfl⟩)
      simp only [List.mem_cons, Prod.mk.injEq, true_and, habsent a, or_false,
        List.lookup_cons_self, Option.some.injEq]
      exact eq_comm
    · simp only [List.mem_cons, Prod.mk.injEq, h, false_and, false_or, List.lookup_cons,
        beq_false_of_ne h]
      exact ih hl

@[simp] theorem get?_mapKeyed (f : String → α → β) (d : Dict α) (k : String) :
    (d.mapKeyed f).get? k = (d.get? k).map (f k) := by
  show (d.entries.map fun e => (e.1, f e.1 e.2)).lookup k = _
  simp only [get?]
  induction d.entries with
  | nil => rfl
  | cons e l ih =>
    obtain ⟨ek, ea⟩ := e
    by_cases h : k = ek
    · subst h
      simp
    · simp only [List.map_cons, List.lookup_cons, beq_false_of_ne h]
      exact ih

@[simp] theorem get?_map (f : α → β) (d : Dict α) (k : String) :
    (d.map f).get? k = (d.get? k).map f :=
  get?_mapKeyed (fun _ a => f a) d k

@[simp] theorem get?_filter (p : α → Bool) (d : Dict α) (k : String) :
    (d.filter p).get? k = (d.get? k).filter p := by
  cases hk : d.get? k with
  | none =>
    rw [Option.filter_none]
    cases hf : (d.filter p).get? k with
    | none => rfl
    | some a =>
      have hmem := ((d.filter p).mem_entries k a).mpr hf
      rw [(d.mem_entries k a).mp (List.mem_of_mem_filter hmem)] at hk
      cases hk
  | some a =>
    have hmem := (d.mem_entries k a).mpr hk
    by_cases hp : p a = true
    · rw [Option.filter_some_pos hp]
      exact ((d.filter p).mem_entries k a).mp (List.mem_filter.mpr ⟨hmem, hp⟩)
    · rw [Option.filter_some_neg (by simpa using hp)]
      cases hf : (d.filter p).get? k with
      | none => rfl
      | some a' =>
        obtain ⟨hmem', hp'⟩ := List.mem_filter.mp (((d.filter p).mem_entries k a').mpr hf)
        obtain rfl := Option.some.inj (((d.mem_entries k a').mp hmem').symm.trans hk)
        exact absurd hp' hp

theorem get?_filterKeyed_eq_some (p : String → α → Bool) (d : Dict α) (k : String) (a : α) :
    (d.filterKeyed p).get? k = some a ↔ d.get? k = some a ∧ p k a = true := by
  rw [← mem_entries, ← mem_entries]
  exact List.mem_filter

theorem get?_assign (d o : Dict α) (k : String) :
    (d.assign o).get? k = (o.get? k).or (d.get? k) := by
  obtain ⟨entries, hnodup⟩ := o
  simp only [assign, setAll]
  show _ = (entries.lookup k).or (d.get? k)
  induction entries generalizing d with
  | nil => rfl
  | cons e l ih =>
    obtain ⟨ek, ea⟩ := e
    rw [List.map_cons] at hnodup
    obtain ⟨hnot, hl⟩ := List.nodup_cons.mp hnodup
    rw [List.foldl_cons, ih (d.set ek ea) hl, get?_set]
    by_cases h : k = ek
    · -- later entries have other keys
      subst h
      have hnone : l.lookup k = none := by
        rw [List.lookup_eq_none_iff]
        intro e he
        rw [bne_iff_ne]
        intro heq
        exact hnot (List.mem_map.mpr ⟨e, he, heq.symm⟩)
      simp [hnone]
    · simp only [if_neg h, List.lookup_cons, beq_false_of_ne h]

theorem get?_erase (d : Dict α) (k k' : String) :
    (d.erase k).get? k' = if k' = k then none else d.get? k' := by
  show (d.entries.filter fun e => e.1 != k).lookup k' = _
  simp only [get?]
  induction d.entries with
  | nil => simp
  | cons e l ih =>
    obtain ⟨ek, ea⟩ := e
    by_cases hek : ek = k
    · subst hek
      rw [List.filter_cons_of_neg (by simp), ih]
      by_cases h : k' = ek
      · rw [if_pos h, if_pos h]
      · simp only [if_neg h, List.lookup_cons, beq_false_of_ne h]
    · rw [List.filter_cons_of_pos (by simpa using hek)]
      by_cases h : k' = ek
      · subst h
        simp [hek]
      · simp only [List.lookup_cons, beq_false_of_ne h]
        exact ih

/-! ## Dictionaries as wholes -/

variable {d : Dict α}

theorem ext_entries {d' : Dict α} (h : d.entries = d'.entries) : d = d' := by
  obtain ⟨entries, hnodup⟩ := d
  obtain ⟨entries', hnodup'⟩ := d'
  subst h
  rfl

/-- Replacements that agree on the values of the dictionary give the same. -/
theorem mapKeyed_congr {f g : String → α → β}
    (h : ∀ k a, d.get? k = some a → f k a = g k a) : d.mapKeyed f = d.mapKeyed g := by
  refine ext_entries (List.map_congr_left ?_)
  intro e he
  rw [h e.1 e.2 ((d.mem_entries e.1 e.2).mp he)]

theorem map_congr {f g : α → β} (h : ∀ k a, d.get? k = some a → f a = g a) :
    d.map f = d.map g :=
  mapKeyed_congr h

/-- A function that changes no entry. -/
theorem mapKeyed_eq_self {f : String → α → α}
    (h : ∀ k a, d.get? k = some a → f k a = a) : d.mapKeyed f = d := by
  rw [mapKeyed_congr (g := fun _ a => a) h]
  exact ext_entries (List.map_id _)

theorem map_map {γ : Type*} (f : α → β) (g : β → γ) (d : Dict α) :
    (d.map f).map g = d.map fun a => g (f a) :=
  ext_entries (List.map_map)

theorem mapKeyed_map {γ : Type*} (f : α → β) (g : String → β → γ) (d : Dict α) :
    (d.map f).mapKeyed g = d.mapKeyed fun k a => g k (f a) :=
  ext_entries (List.map_map)

theorem map_mapKeyed {γ : Type*} (f : String → α → β) (g : β → γ) (d : Dict α) :
    (d.mapKeyed f).map g = d.mapKeyed fun k a => g (f k a) :=
  ext_entries (List.map_map)

theorem mapKeyed_mapKeyed {γ : Type*} (f : String → α → β) (g : String → β → γ) (d : Dict α) :
    (d.mapKeyed f).mapKeyed g = d.mapKeyed fun k a => g k (f k a) :=
  ext_entries (List.map_map)

theorem setEntry_map (f : α → β) (k : String) (a : α) (l : List (String × α)) :
    (setEntry k a l).map (fun e => (e.1, f e.2)) =
      setEntry k (f a) (l.map fun e => (e.1, f e.2)) := by
  induction l with
  | nil => rfl
  | cons e l ih =>
    simp only [setEntry, List.map_cons]
    split
    · rfl
    · rw [List.map_cons, ih]

theorem map_set (f : α → β) (d : Dict α) (k : String) (a : α) :
    (d.set k a).map f = (d.map f).set k (f a) :=
  ext_entries (setEntry_map f k a d.entries)

theorem map_filter (f : α → β) (p : β → Bool) (d : Dict α) :
    (d.map f).filter p = (d.filter fun a => p (f a)).map f := by
  refine ext_entries ?_
  show (d.entries.map fun e => (e.1, f e.2)).filter (fun e => p e.2) = _
  rw [List.filter_map]
  rfl

/-- Storing a value under a key that exists replaces the value there. -/
theorem set_eq_mapKeyed {a₀ : α} (h : d.get? k = some a₀) (a : α) :
    d.set k a = d.mapKeyed fun k' a' => if k' = k then a else a' := by
  refine ext_entries ?_
  show setEntry k a d.entries = d.entries.map fun e => (e.1, if e.1 = k then a else e.2)
  obtain ⟨entries, hnodup⟩ := d
  simp only [get?] at h ⊢
  induction entries with
  | nil => simp at h
  | cons e l ih =>
    obtain ⟨ek, ea⟩ := e
    rw [List.map_cons] at hnodup
    obtain ⟨hnot, hl⟩ := List.nodup_cons.mp hnodup
    simp only [setEntry, List.map_cons]
    by_cases hek : ek = k
    · subst hek
      rw [if_pos rfl, if_pos rfl]
      congr 1
      refine (List.map_id l).symm.trans (List.map_congr_left ?_)
      intro e he
      have hne : e.1 ≠ ek := fun heq => hnot (List.mem_map.mpr ⟨e, he, heq⟩)
      simp [hne]
    · rw [if_neg hek, if_neg hek]
      simp only [List.lookup_cons, beq_false_of_ne (Ne.symm hek)] at h
      rw [ih hl h]

variable {a : α} {l : List (String × α)}

theorem setEntry_of_notMem (h : k ∉ l.map Prod.fst) : setEntry k a l = l ++ [(k, a)] := by
  induction l with
  | nil => rfl
  | cons e l ih =>
    rw [List.map_cons, List.mem_cons, not_or] at h
    simp only [setEntry]
    rw [if_neg (Ne.symm h.1), ih h.2]
    rfl

/-- Assignments to new keys are appended. -/
theorem entries_setAll (d : Dict α) (l : List (String × α))
    (h : ((d.entries ++ l).map Prod.fst).Nodup) : (d.setAll l).entries = d.entries ++ l := by
  induction l generalizing d with
  | nil => simp [setAll]
  | cons e l ih =>
    have hnot : e.1 ∉ d.entries.map Prod.fst := by
      rw [List.map_append, List.nodup_append] at h
      intro hmem
      exact h.2.2 e.1 hmem e.1 List.mem_cons_self rfl
    have hset : (d.set e.1 e.2).entries = d.entries ++ [e] := setEntry_of_notMem hnot
    have hrest := ih (d.set e.1 e.2) (by rw [hset, List.append_assoc]; exact h)
    rw [hset, List.append_assoc] at hrest
    exact hrest

@[simp] theorem ofList_entries (d : Dict α) : ofList d.entries = d :=
  ext_entries (entries_setAll empty d.entries d.nodup)

theorem get?_ofList (h : (l.map Prod.fst).Nodup) (hmem : (k, a) ∈ l) : (ofList l).get? k = some a := by
  have hentries : (ofList l).entries = l := entries_setAll empty l h
  rw [← mem_entries, hentries]
  exact hmem

/-- What a list of assignments leaves under a key comes from the list or was there before. -/
theorem get?_setAll (h : (d.setAll l).get? k = some a) : (k, a) ∈ l ∨ d.get? k = some a := by
  induction l generalizing d with
  | nil => exact .inr h
  | cons e l ih =>
    cases ih (d := d.set e.1 e.2) h with
    | inl hl => exact .inl (List.mem_cons_of_mem _ hl)
    | inr hset =>
      rw [get?_set] at hset
      split at hset
      · rename_i hk
        cases hset
        rw [hk]
        exact .inl List.mem_cons_self
      · exact .inr hset

/-- A key that is not assigned keeps its value. -/
theorem get?_setAll_of_notMem (h : ∀ a, (k, a) ∉ l) : (d.setAll l).get? k = d.get? k := by
  induction l generalizing d with
  | nil => rfl
  | cons e l ih =>
    have hk : k ≠ e.1 := by
      intro hk
      exact h e.2 (by simp [hk])
    show ((d.set e.1 e.2).setAll l).get? k = d.get? k
    rw [ih fun a hmem => h a (List.mem_cons_of_mem _ hmem), get?_set_ne _ _ hk]

/-- A key that is assigned has one of the values assigned to it. -/
theorem get?_setAll_of_mem (h : (k, a) ∈ l) : ∃ a', (k, a') ∈ l ∧ (d.setAll l).get? k = some a' := by
  induction l generalizing d a with
  | nil => cases h
  | cons e l ih =>
    by_cases hl : ∃ a', (k, a') ∈ l
    · obtain ⟨a', ha'⟩ := hl
      obtain ⟨a'', hmem, hget⟩ := ih (d := d.set e.1 e.2) ha'
      exact ⟨a'', List.mem_cons_of_mem _ hmem, hget⟩
    · have hnone : ∀ a', (k, a') ∉ l := fun a' ha' => hl ⟨a', ha'⟩
      have hke : (k, a) = e := by
        cases List.mem_cons.mp h with
        | inl heq => exact heq
        | inr hmem => exact absurd hmem (hnone a)
      refine ⟨a, h, ?_⟩
      show ((d.set e.1 e.2).setAll l).get? k = some a
      rw [get?_setAll_of_notMem hnone, ← hke, get?_set_self]

theorem mem_of_get?_ofList (h : (ofList l).get? k = some a) : (k, a) ∈ l := by
  cases get?_setAll h with
  | inl hl => exact hl
  | inr hempty => cases hempty

theorem mem_values (h : a ∈ d.values) : ∃ k, d.get? k = some a := by
  obtain ⟨⟨k, a'⟩, hmem, rfl⟩ := List.mem_map.mp h
  exact ⟨k, (d.mem_entries k a').mp hmem⟩

theorem values_filter (p : α → Bool) (d : Dict α) : (d.filter p).values = d.values.filter p := by
  unfold values filter
  rw [List.filter_map]
  rfl

theorem mem_values_of_get? (h : d.get? k = some a) :
    a ∈ d.values :=
  List.mem_map.mpr ⟨(k, a), (d.mem_entries k a).mpr h, rfl⟩

theorem get?_of_entries (h : d.entries = []) (k : String) : d.get? k = none := by
  simp [get?, h]

/-- A dictionary in which no key is found is empty. -/
theorem entries_of_get? (h : ∀ k, d.get? k = none) : d.entries = [] := by
  cases hd : d.entries with
  | nil => rfl
  | cons e rest =>
    have hmem : (e.1, e.2) ∈ d.entries := by simp [hd]
    have hget := (d.mem_entries e.1 e.2).mp hmem
    simp [h e.1] at hget

/-- The first entry that has a property is the first without a key, unless the key is its own. -/
theorem find?_erase {p : String × α → Bool} {e : String × α}
    (h : d.entries.find? p = some e) (hk : e.1 ≠ k) : (d.erase k).entries.find? p = some e := by
  show (d.entries.filter fun e => e.1 != k).find? p = some e
  rw [List.find?_filter]
  obtain ⟨hp, before, after, heq, hbefore⟩ := List.find?_eq_some_iff_append.mp h
  refine List.find?_eq_some_iff_append.mpr ⟨by simp [hp, hk], before, after, heq, ?_⟩
  intro x hx
  simp [hbefore x hx]

theorem find?_erase_eq_none {p : String × α → Bool} (h : d.entries.find? p = none)
    (k : String) : (d.erase k).entries.find? p = none :=
  List.find?_eq_none.mpr fun x hx =>
    List.find?_eq_none.mp h x (List.mem_of_mem_filter hx)

/-! ## Sizes -/

/-- The number of entries. -/
def size (d : Dict α) : Nat := d.entries.length

theorem length_setEntry (k : String) (a : α) (l : List (String × α)) :
    (setEntry k a l).length = if k ∈ l.map Prod.fst then l.length else l.length + 1 := by
  induction l with
  | nil => rfl
  | cons e l ih =>
    simp only [setEntry]
    by_cases heq : e.1 = k
    · simp [heq]
    · rw [if_neg heq, List.length_cons, ih]
      simp only [List.map_cons, List.mem_cons, Ne.symm heq, false_or, List.length_cons]
      split <;> rfl

theorem mem_keys (d : Dict α) (k : String) :
    k ∈ d.entries.map Prod.fst ↔ ∃ a, d.get? k = some a := by
  constructor
  · intro h
    obtain ⟨e, he, rfl⟩ := List.mem_map.mp h
    exact ⟨e.2, (d.mem_entries e.1 e.2).mp he⟩
  · rintro ⟨a, ha⟩
    exact List.mem_map.mpr ⟨(k, a), (d.mem_entries k a).mpr ha, rfl⟩

theorem size_set_of_some {a₀ : α} (h : d.get? k = some a₀) (a : α) :
    (d.set k a).size = d.size := by
  rw [size, size, set, length_setEntry, if_pos ((d.mem_keys k).mpr ⟨a₀, h⟩)]

theorem size_set_of_none (h : d.get? k = none) (a : α) :
    (d.set k a).size = d.size + 1 := by
  have hnot : k ∉ d.entries.map Prod.fst := by
    intro hmem
    obtain ⟨b, hb⟩ := (d.mem_keys k).mp hmem
    rw [h] at hb
    cases hb
  rw [size, size, set, length_setEntry, if_neg hnot]

theorem size_filter_le (p : α → Bool) (d : Dict α) : (d.filter p).size ≤ d.size :=
  List.length_filter_le _ _

/-- An entry that is filtered out makes the dictionary smaller. -/
theorem size_filter_lt {p : α → Bool} (h : d.get? k = some a)
    (hp : p a = false) : (d.filter p).size < d.size :=
  List.length_filter_lt_length_iff_exists.mpr ⟨(k, a), (d.mem_entries k a).mpr h, by simp [hp]⟩

theorem size_erase_le (d : Dict α) (k : String) : (d.erase k).size ≤ d.size :=
  List.length_filter_le _ _

theorem size_erase_lt (h : d.get? k = some a) :
    (d.erase k).size < d.size :=
  List.length_filter_lt_length_iff_exists.mpr ⟨(k, a), (d.mem_entries k a).mpr h, by simp⟩

/-- Dictionaries with the same values under all keys are of the same size. -/
theorem size_eq_of_get? {d' : Dict α} (h : ∀ k, d.get? k = d'.get? k) : d.size = d'.size := by
  have hnodup : ∀ d : Dict α, d.entries.Nodup := fun d => d.nodup.of_map _
  have hperm : d.entries.Perm d'.entries := by
    refine (List.perm_ext_iff_of_nodup (hnodup d) (hnodup d')).mpr ?_
    intro e
    rw [show e = (e.1, e.2) from rfl, mem_entries, mem_entries, h]
  exact hperm.length_eq

end Dict
