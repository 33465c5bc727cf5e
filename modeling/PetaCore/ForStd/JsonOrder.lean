import PetaCore.ForStd.Json

/-!
# JSON values up to the order of keys

Two values are the same up to order when they differ only in the order in which their
objects, at any depth, list their members. Rewriting the member list of every object by a
function that only depends on the members, not on their order, is a normal form for this
relation: two values have the same normal form exactly when they are the same up to order.

## Key results

- `Json.mapObjects_eq_iff`: normal forms are equal exactly for values that are the same up to
  order
- `Json.sortEntries_eq_of_perm`: sorting by key does not depend on the order
-/

namespace Json

/-! ## The relation -/

mutual

/-- Equal up to the order of object keys at every depth. -/
inductive SameUpToOrder : Json → Json → Prop
  | null : SameUpToOrder null null
  | bool (b : Bool) : SameUpToOrder (bool b) (bool b)
  | num (n : JsNumber) : SameUpToOrder (num n) (num n)
  | str (s : String) : SameUpToOrder (str s) (str s)
  | arr {as bs : List Json} (h : SameItems as bs) : SameUpToOrder (arr as) (arr bs)
  | obj {ms ms' : List (String × Json)} (h : SameMembers ms ms') :
      SameUpToOrder (obj ms) (obj ms')

/-- The items of two arrays, position by position. -/
inductive SameItems : List Json → List Json → Prop
  | nil : SameItems [] []
  | cons {a b : Json} {as bs : List Json} (h : SameUpToOrder a b) (hs : SameItems as bs) :
      SameItems (a :: as) (b :: bs)

/-- The members of two objects, each with the one of the same key wherever it stands. -/
inductive SameMembers : List (String × Json) → List (String × Json) → Prop
  | nil : SameMembers [] []
  | cons {k : String} {a b : Json} {ms xs ys : List (String × Json)} (h : SameUpToOrder a b)
      (hs : SameMembers ms (xs ++ ys)) : SameMembers ((k, a) :: ms) (xs ++ (k, b) :: ys)

end

mutual

/-- No object, at any depth, has a key twice. -/
def KeysDistinct : Json → Prop
  | arr as => ItemsDistinct as
  | obj ms => (ms.map Prod.fst).Nodup ∧ MembersDistinct ms
  | _ => True

def ItemsDistinct : List Json → Prop
  | [] => True
  | a :: as => KeysDistinct a ∧ ItemsDistinct as

def MembersDistinct : List (String × Json) → Prop
  | [] => True
  | (_, a) :: ms => KeysDistinct a ∧ MembersDistinct ms

end

end Json

/-- A value as a program holds it: no object has a key twice. -/
abbrev JsonValue := { a : Json // a.KeysDistinct }

namespace Json

/-! ## Rewriting the member lists -/

section

variable (f : List (String × Json) → List (String × Json))

mutual

/-- Rewrite the member list of every object by `f`, from the inside out. -/
def mapObjects : Json → Json
  | arr as => arr (mapItems as)
  | obj ms => obj (f (mapMembers ms))
  | a => a

def mapItems : List Json → List Json
  | [] => []
  | a :: as => mapObjects a :: mapItems as

def mapMembers : List (String × Json) → List (String × Json)
  | [] => []
  | (k, a) :: ms => (k, mapObjects a) :: mapMembers ms

end

theorem mapMembers_append (ms ms' : List (String × Json)) :
    mapMembers f (ms ++ ms') = mapMembers f ms ++ mapMembers f ms' := by
  induction ms with
  | nil => rfl
  | cons m ms ih =>
    obtain ⟨k, a⟩ := m
    simp only [List.cons_append, mapMembers, ih]

theorem map_fst_mapMembers (ms : List (String × Json)) :
    (mapMembers f ms).map Prod.fst = ms.map Prod.fst := by
  induction ms with
  | nil => rfl
  | cons m ms ih =>
    obtain ⟨k, a⟩ := m
    simp only [mapMembers, List.map_cons, ih]

/-- A member of a rewritten list comes from a member of the list. -/
theorem mem_mapMembers (ms : List (String × Json)) (k : String) (c : Json)
    (h : (k, c) ∈ mapMembers f ms) :
    ∃ xs b ys, ms = xs ++ (k, b) :: ys ∧ mapObjects f b = c := by
  induction ms with
  | nil => cases h
  | cons m ms ih =>
    obtain ⟨k', a⟩ := m
    simp only [mapMembers, List.mem_cons, Prod.mk.injEq] at h
    cases h with
    | inl h =>
      obtain ⟨rfl, rfl⟩ := h
      exact ⟨[], a, ms, rfl, rfl⟩
    | inr h =>
      obtain ⟨xs, b, ys, rfl, hb⟩ := ih h
      exact ⟨(k', a) :: xs, b, ys, rfl, hb⟩

end

/-- `f` lists the same members in an order that does not depend on the one given, as long as
    the keys are different. -/
structure IsOrdering (f : List (String × Json) → List (String × Json)) : Prop where
  perm : ∀ ms, (f ms).Perm ms
  canonical : ∀ ms ms', (ms.map Prod.fst).Nodup → ms.Perm ms' → f ms = f ms'

section

variable {f : List (String × Json) → List (String × Json)}

mutual

/-- The normal form does not depend on the order of keys. -/
theorem mapObjects_eq (hf : IsOrdering f) (a b : Json) (h : SameUpToOrder a b) (ha : a.KeysDistinct) :
    mapObjects f a = mapObjects f b := by
  match a, b, h with
  | null, _, .null | bool _, _, .bool _ | num _, _, .num _ | str _, _, .str _ => rfl
  | arr as, arr bs, .arr hs => rw [mapObjects, mapObjects, mapItems_eq hf as bs hs ha]
  | obj ms, obj ms', .obj hs =>
    rw [mapObjects, mapObjects]
    refine congrArg Json.obj (hf.canonical _ _ ?_ (mapMembers_perm hf ms ms' hs ha.2))
    rw [map_fst_mapMembers]
    exact ha.1
termination_by sizeOf a

theorem mapItems_eq (hf : IsOrdering f) (as bs : List Json) (h : SameItems as bs) (has : ItemsDistinct as) :
    mapItems f as = mapItems f bs := by
  match as, bs, h with
  | [], _, .nil => rfl
  | a :: as, b :: bs, .cons h hs =>
    rw [mapItems, mapItems, mapObjects_eq hf a b h has.1, mapItems_eq hf as bs hs has.2]
termination_by sizeOf as

theorem mapMembers_perm (hf : IsOrdering f) (ms ms' : List (String × Json)) (h : SameMembers ms ms')
    (hms : MembersDistinct ms) : (mapMembers f ms).Perm (mapMembers f ms') := by
  match ms, h with
  | [], .nil => exact List.Perm.refl _
  | (k, a) :: ms, @SameMembers.cons _ _ b _ xs ys h hs =>
    have htail := mapMembers_perm hf ms (xs ++ ys) hs hms.2
    rw [mapMembers_append] at htail
    rw [mapMembers, mapMembers_append, mapMembers, mapObjects_eq hf a b h hms.1]
    exact (htail.cons _).trans List.perm_middle.symm
termination_by sizeOf ms

end

mutual

/-- Values with the same normal form are the same up to order. -/
theorem sameUpToOrder_of_mapObjects_eq (hf : IsOrdering f) (a b : Json) (h : mapObjects f a = mapObjects f b) :
    SameUpToOrder a b := by
  match a, b with
  | null, null => exact .null
  | bool c, bool d =>
    obtain rfl := Json.bool.inj h
    exact .bool c
  | num n, num n' =>
    obtain rfl := Json.num.inj h
    exact .num n
  | str s, str s' =>
    obtain rfl := Json.str.inj h
    exact .str s
  | arr as, arr bs =>
    rw [mapObjects, mapObjects] at h
    exact .arr (sameItems_of_mapItems_eq hf as bs (Json.arr.inj h))
  | obj ms, obj ms' =>
    rw [mapObjects, mapObjects] at h
    have heq := Json.obj.inj h
    have hmembers : (mapMembers f ms).Perm (mapMembers f ms') := by
      refine (hf.perm _).symm.trans ?_
      rw [heq]
      exact hf.perm _
    exact .obj (sameMembers_of_perm hf ms ms' hmembers)
termination_by sizeOf a

theorem sameItems_of_mapItems_eq (hf : IsOrdering f) (as bs : List Json) (h : mapItems f as = mapItems f bs) :
    SameItems as bs := by
  match as, bs with
  | [], [] => exact .nil
  | [], b :: bs => cases h
  | a :: as, [] => cases h
  | a :: as, b :: bs =>
    rw [mapItems, mapItems] at h
    obtain ⟨hhead, htail⟩ := List.cons.inj h
    exact .cons (sameUpToOrder_of_mapObjects_eq hf a b hhead) (sameItems_of_mapItems_eq hf as bs htail)
termination_by sizeOf as

theorem sameMembers_of_perm (hf : IsOrdering f) (ms ms' : List (String × Json))
    (h : (mapMembers f ms).Perm (mapMembers f ms')) : SameMembers ms ms' := by
  match ms with
  | [] =>
    cases ms' with
    | nil => exact .nil
    | cons m ms' => exact absurd h.length_eq (by simp [mapMembers])
  | (k, a) :: ms =>
    rw [mapMembers] at h
    -- the first member has its counterpart somewhere in the other object
    obtain ⟨xs, b, ys, rfl, hb⟩ := mem_mapMembers f ms' k (mapObjects f a)
      (h.subset List.mem_cons_self)
    rw [mapMembers_append, mapMembers, hb] at h
    have htail := (h.trans List.perm_middle).cons_inv
    rw [← mapMembers_append] at htail
    exact .cons (sameUpToOrder_of_mapObjects_eq hf a b hb.symm)
      (sameMembers_of_perm hf ms (xs ++ ys) htail)
termination_by sizeOf ms

end

/-- Normal forms are equal exactly for values that are the same up to order. -/
theorem mapObjects_eq_iff (hf : IsOrdering f) (a b : Json) (ha : a.KeysDistinct) :
    mapObjects f a = mapObjects f b ↔ SameUpToOrder a b :=
  ⟨sameUpToOrder_of_mapObjects_eq hf a b, fun h => mapObjects_eq hf a b h ha⟩

end

/-! ## Rewriting twice, and leaving members out -/

theorem membersDistinct_iff (ms : List (String × Json)) :
    MembersDistinct ms ↔ ∀ m ∈ ms, m.2.KeysDistinct := by
  induction ms with
  | nil => simp [MembersDistinct]
  | cons m ms ih =>
    obtain ⟨k, a⟩ := m
    simp [MembersDistinct, ih]

theorem mapMembers_eq_map (f : List (String × Json) → List (String × Json))
    (ms : List (String × Json)) :
    mapMembers f ms = ms.map fun m => (m.1, mapObjects f m.2) := by
  induction ms with
  | nil => rfl
  | cons m ms ih =>
    obtain ⟨k, a⟩ := m
    simp only [mapMembers, List.map_cons, ih]

section

variable {f g : List (String × Json) → List (String × Json)}

mutual

/-- Listing the members of the objects in another order keeps their keys distinct. -/
theorem keysDistinct_mapObjects (hf : ∀ ms, (f ms).Perm ms) (a : Json) (ha : a.KeysDistinct) :
    (mapObjects f a).KeysDistinct := by
  match a with
  | null | bool _ | num _ | str _ => trivial
  | arr as => exact itemsDistinct_mapItems hf as ha
  | obj ms =>
    rw [mapObjects]
    refine ⟨?_, ?_⟩
    · refine (((hf _).map Prod.fst).nodup_iff).mpr ?_
      rw [map_fst_mapMembers]
      exact ha.1
    · rw [membersDistinct_iff]
      intro m hm
      exact (membersDistinct_iff _).mp (membersDistinct_mapMembers hf ms ha.2) m
        ((hf _).subset hm)
termination_by sizeOf a

theorem itemsDistinct_mapItems (hf : ∀ ms, (f ms).Perm ms) (as : List Json)
    (has : ItemsDistinct as) : ItemsDistinct (mapItems f as) := by
  match as with
  | [] => trivial
  | a :: as =>
    exact ⟨keysDistinct_mapObjects hf a has.1, itemsDistinct_mapItems hf as has.2⟩
termination_by sizeOf as

theorem membersDistinct_mapMembers (hf : ∀ ms, (f ms).Perm ms) (ms : List (String × Json))
    (hms : MembersDistinct ms) : MembersDistinct (mapMembers f ms) := by
  match ms with
  | [] => trivial
  | (k, a) :: ms =>
    exact ⟨keysDistinct_mapObjects hf a hms.1, membersDistinct_mapMembers hf ms hms.2⟩
termination_by sizeOf ms

end

mutual

/-- A normal form is not changed by an earlier change of the order. -/
theorem mapObjects_mapObjects (hg : IsOrdering g) (hf : ∀ ms, (f ms).Perm ms) (a : Json)
    (ha : a.KeysDistinct) : mapObjects g (mapObjects f a) = mapObjects g a := by
  match a with
  | null | bool _ | num _ | str _ => rfl
  | arr as => rw [mapObjects, mapObjects, mapObjects, mapItems_mapItems hg hf as ha]
  | obj ms =>
    rw [mapObjects, mapObjects, mapObjects]
    have hperm : (mapMembers g (f (mapMembers f ms))).Perm (mapMembers g ms) := by
      rw [← mapMembers_mapMembers hg hf ms ha.2, mapMembers_eq_map g, mapMembers_eq_map g]
      exact (hf _).map _
    refine congrArg Json.obj (hg.canonical _ _ ?_ hperm)
    refine ((hperm.map Prod.fst).nodup_iff).mpr ?_
    rw [map_fst_mapMembers]
    exact ha.1
termination_by sizeOf a

theorem mapItems_mapItems (hg : IsOrdering g) (hf : ∀ ms, (f ms).Perm ms) (as : List Json)
    (has : ItemsDistinct as) : mapItems g (mapItems f as) = mapItems g as := by
  match as with
  | [] => rfl
  | a :: as =>
    rw [mapItems, mapItems, mapItems, mapObjects_mapObjects hg hf a has.1,
      mapItems_mapItems hg hf as has.2]
termination_by sizeOf as

theorem mapMembers_mapMembers (hg : IsOrdering g) (hf : ∀ ms, (f ms).Perm ms)
    (ms : List (String × Json)) (hms : MembersDistinct ms) :
    mapMembers g (mapMembers f ms) = mapMembers g ms := by
  match ms with
  | [] => rfl
  | (k, a) :: ms =>
    rw [mapMembers, mapMembers, mapMembers, mapObjects_mapObjects hg hf a hms.1,
      mapMembers_mapMembers hg hf ms hms.2]
termination_by sizeOf ms

end

end

section

variable (keep : String → Bool)

mutual

/-- Leave out the members, at every depth, whose key is not to be kept. -/
def filterKeys : Json → Json
  | arr as => arr (filterItems as)
  | obj ms => obj (filterMembers ms)
  | a => a

def filterItems : List Json → List Json
  | [] => []
  | a :: as => filterKeys a :: filterItems as

def filterMembers : List (String × Json) → List (String × Json)
  | [] => []
  | (k, a) :: ms => if keep k then (k, filterKeys a) :: filterMembers ms else filterMembers ms

end

theorem filterMembers_eq (ms : List (String × Json)) :
    filterMembers keep ms =
      (ms.filter fun m => keep m.1).map fun m => (m.1, filterKeys keep m.2) := by
  induction ms with
  | nil => rfl
  | cons m ms ih =>
    obtain ⟨k, a⟩ := m
    rw [filterMembers, ih]
    cases hk : keep k with
    | true => simp [hk]
    | false => simp [hk]

theorem map_fst_filterMembers_sublist (ms : List (String × Json)) :
    ((filterMembers keep ms).map Prod.fst).Sublist (ms.map Prod.fst) := by
  rw [filterMembers_eq, List.map_map]
  exact (List.filter_sublist).map Prod.fst

mutual

/-- Leaving members out keeps the keys distinct. -/
theorem keysDistinct_filterKeys (a : Json) (ha : a.KeysDistinct) :
    (filterKeys keep a).KeysDistinct := by
  match a with
  | null | bool _ | num _ | str _ => trivial
  | arr as => exact itemsDistinct_filterItems as ha
  | obj ms =>
    exact ⟨ha.1.sublist (map_fst_filterMembers_sublist keep ms),
      membersDistinct_filterMembers ms ha.2⟩
termination_by sizeOf a

theorem itemsDistinct_filterItems (as : List Json) (has : ItemsDistinct as) :
    ItemsDistinct (filterItems keep as) := by
  match as with
  | [] => trivial
  | a :: as => exact ⟨keysDistinct_filterKeys a has.1, itemsDistinct_filterItems as has.2⟩
termination_by sizeOf as

theorem membersDistinct_filterMembers (ms : List (String × Json)) (hms : MembersDistinct ms) :
    MembersDistinct (filterMembers keep ms) := by
  match ms with
  | [] => trivial
  | (k, a) :: ms =>
    rw [filterMembers]
    split
    · exact ⟨keysDistinct_filterKeys a hms.1, membersDistinct_filterMembers ms hms.2⟩
    · exact membersDistinct_filterMembers ms hms.2
termination_by sizeOf ms

end

end

/-- Leave out the members of the value itself whose key is not to be kept. -/
def restrictKeys (keep : String → Bool) : Json → Json
  | obj ms => obj (ms.filter fun m => keep m.1)
  | a => a

theorem keysDistinct_restrictKeys (keep : String → Bool) (a : Json) (ha : a.KeysDistinct) :
    (restrictKeys keep a).KeysDistinct := by
  match a with
  | null | bool _ | num _ | str _ => trivial
  | arr as => exact ha
  | obj ms =>
    refine ⟨ha.1.sublist ((List.filter_sublist).map Prod.fst), ?_⟩
    rw [membersDistinct_iff]
    intro m hm
    exact (membersDistinct_iff ms).mp ha.2 m (List.mem_of_mem_filter hm)

/-! ## Sorting by key -/

/-- The UTF-16 code units of a character determine it and what follows them. -/
private theorem codeUnits_append_inj {c d : Char} {us vs : List Nat}
    (h : codeUnits c ++ us = codeUnits d ++ vs) : c = d ∧ us = vs := by
  have hc := c.valid
  have hd := d.valid
  simp only [UInt32.isValidChar, Nat.isValidChar] at hc hd
  have hcn : c.toNat = c.val.toNat := rfl
  have hdn : d.toNat = d.val.toNat := rfl
  have hchar : c.toNat = d.toNat → c = d := fun h => Char.toNat_inj.mp h
  simp only [codeUnits] at h
  split at h <;> split at h
  · simp only [List.cons_append, List.nil_append, List.cons.injEq] at h
    exact ⟨hchar h.1, h.2⟩
  · -- a surrogate is no character
    simp only [List.cons_append, List.nil_append, List.cons.injEq] at h
    omega
  · simp only [List.cons_append, List.nil_append, List.cons.injEq] at h
    omega
  · simp only [List.cons_append, List.nil_append, List.cons.injEq] at h
    obtain ⟨hhigh, hlow, hrest⟩ := h
    exact ⟨hchar (by omega), hrest⟩

theorem codeUnits_injective {k k' : String}
    (h : k.toList.flatMap codeUnits = k'.toList.flatMap codeUnits) : k = k' := by
  refine String.toList_inj.mp ?_
  generalize k.toList = cs at h
  generalize k'.toList = ds at h
  have hne : ∀ c : Char, codeUnits c ≠ [] := by
    intro c
    simp only [codeUnits]
    split <;> simp
  induction cs generalizing ds with
  | nil =>
    cases ds with
    | nil => rfl
    | cons d ds => exact absurd (List.append_eq_nil_iff.mp h.symm).1 (hne d)
  | cons c cs ih =>
    cases ds with
    | nil => exact absurd (List.append_eq_nil_iff.mp h).1 (hne c)
    | cons d ds =>
      obtain ⟨rfl, hrest⟩ := codeUnits_append_inj h
      rw [ih ds hrest]

theorem keyLe_antisymm {k k' : String} (h : keyLe k k' = true) (h' : keyLe k' k = true) :
    k = k' := by
  simp only [keyLe, decide_eq_true_eq] at h h'
  exact codeUnits_injective (le_antisymm h h')

/-- The members of an object in the order of their keys. -/
def sortEntries (ms : List (String × Json)) : List (String × Json) :=
  ms.insertionSort fun e e' => keyLe e.1 e'.1 = true

theorem sortEntries_pairwise (ms : List (String × Json)) :
    (sortEntries ms).Pairwise fun e e' => keyLe e.1 e'.1 = true := by
  have : Std.Total fun e e' : String × Json => keyLe e.1 e'.1 = true :=
    ⟨fun e e' => by
      simp only [keyLe, decide_eq_true_eq]
      exact le_total _ _⟩
  have : IsTrans (String × Json) fun e e' => keyLe e.1 e'.1 = true :=
    ⟨fun e e' e'' h h' => by
      simp only [keyLe, decide_eq_true_eq] at h h' ⊢
      exact le_trans h h'⟩
  exact List.pairwise_insertionSort _ ms

theorem isOrdering_sortEntries : IsOrdering sortEntries := by
  refine ⟨fun ms => List.perm_insertionSort _ ms, ?_⟩
  intro ms ms' hnodup hperm
  have hsorted : (sortEntries ms).Perm (sortEntries ms') :=
    (List.perm_insertionSort _ ms).trans (hperm.trans (List.perm_insertionSort _ ms').symm)
  refine hsorted.eq_of_pairwise ?_ (sortEntries_pairwise ms) (sortEntries_pairwise ms')
  intro e e' he he' hle hle'
  -- members of the same key are the same member
  have hmem : e ∈ ms := (List.perm_insertionSort _ ms).subset he
  have hmem' : e' ∈ ms := hperm.symm.subset ((List.perm_insertionSort _ ms').subset he')
  exact List.inj_on_of_nodup_map hnodup hmem hmem' (keyLe_antisymm hle hle')

/-- The order in which `Object.fromEntries` lists the given entries. -/
def propertyOrder (entries : List (String × Json)) : List (String × Json) :=
  (entries.filter fun e => (arrayIndex? e.1).isSome).insertionSort
      (fun e e' => (arrayIndex? e.1).getD 0 ≤ (arrayIndex? e'.1).getD 0) ++
    entries.filter fun e => (arrayIndex? e.1).isNone

theorem propertyOrder_perm (entries : List (String × Json)) :
    (propertyOrder entries).Perm entries := by
  have hsplit := List.filter_append_perm (fun e : String × Json => (arrayIndex? e.1).isSome)
    entries
  simp only [Option.not_isSome] at hsplit
  exact ((List.perm_insertionSort _ _).append_right _).trans hsplit

theorem isOrdering_propertyOrder :
    IsOrdering fun ms => propertyOrder (sortEntries ms) := by
  refine ⟨fun ms => (propertyOrder_perm _).trans (isOrdering_sortEntries.perm ms), ?_⟩
  intro ms ms' hnodup hperm
  exact congrArg propertyOrder (isOrdering_sortEntries.canonical ms ms' hnodup hperm)

end Json
