import Mathlib.Algebra.GroupWithZero.Nat
import PetaCore.ForStd.JsonOrder
import PetaCore.ForStd.JsonParse

/-!
# JSON texts in the strings of JSON values

A string of a JSON value can be a JSON text itself, to any depth. What such a text stands for is
smaller than the value that holds it, which lets a function go on into the texts it finds.

A number of a text can be too large for a double. `JSON.parse` reads an infinite number then, and
`JSON.stringify` prints `null` for it.

Key results:
- `Json.size_parse_le`: a value is no larger than the text it is read from
- `Json.ordered_parse`: what is read lists its members in property order
-/

namespace Json

mutual

/-- The size of a value: a string counts its characters. -/
def size : Json → Nat
  | str s => s.toList.length + 1
  | arr items => sizeItems items + 1
  | obj members => sizeMembers members + 1
  | _ => 1

def sizeItems : List Json → Nat
  | [] => 0
  | item :: items => size item + sizeItems items

def sizeMembers : List (String × Json) → Nat
  | [] => 0
  | (_, value) :: members => size value + sizeMembers members

end

theorem size_pos (a : Json) : 0 < size a := by
  cases a <;> simp [size]

theorem sizeMembers_eq_sum (members : List (String × Json)) :
    sizeMembers members = (members.map fun m => size m.2).sum := by
  induction members with
  | nil => rfl
  | cons m members ih => rw [sizeMembers, ih, List.map_cons, List.sum_cons]

theorem sizeMembers_perm {members members' : List (String × Json)} (h : members.Perm members') :
    sizeMembers members = sizeMembers members' := by
  rw [sizeMembers_eq_sum, sizeMembers_eq_sum]
  exact (h.map _).sum_nat

theorem sizeMembers_setEntry_le (key : String) (value : Json) (members : List (String × Json)) :
    sizeMembers (Dict.setEntry key value members) ≤ sizeMembers members + size value := by
  induction members with
  | nil => simp [Dict.setEntry, sizeMembers]
  | cons m members ih =>
    rw [Dict.setEntry]
    split
    all_goals
      simp only [sizeMembers]
      omega

theorem sizeMembers_setAll_le (d : Dict Json) (members : List (String × Json)) :
    sizeMembers (d.setAll members).entries ≤ sizeMembers d.entries + sizeMembers members := by
  induction members generalizing d with
  | nil => exact Nat.le_refl _
  | cons m members ih =>
    have hset := sizeMembers_setEntry_le m.1 m.2 d.entries
    have hrest := ih (d.set m.1 m.2)
    simp only [sizeMembers]
    exact Nat.le_trans hrest (by
      show sizeMembers (Dict.setEntry m.1 m.2 d.entries) + _ ≤ _
      omega)

/-- Of two members with one key, one is dropped. -/
theorem size_ofMembers_le (members : List (String × Json)) :
    size (ofMembers members) ≤ sizeMembers members + 1 := by
  have hall := sizeMembers_setAll_le Dict.empty members
  have hperm := sizeMembers_perm (propertyOrder_perm (Dict.ofList members).entries)
  show sizeMembers (propertyOrder (Dict.ofList members).entries) + 1 ≤ _
  rw [hperm]
  have hempty : sizeMembers (Dict.empty (α := Json)).entries = 0 := rfl
  rw [hempty] at hall
  exact Nat.succ_le_succ (by simpa [Dict.ofList] using hall)

/-! ## What the parser consumes -/

theorem length_skipSpace_le (cs : List Char) : (skipSpace cs).length ≤ cs.length :=
  (List.dropWhile_sublist _).length_le

variable {cs rest : List Char}

theorem length_codeUnit? {unit : Nat}
    (h : codeUnit? cs = some (unit, rest)) : rest.length < cs.length := by
  unfold codeUnit? at h
  split at h
  · split at h
    · cases h
      simp only [List.length_cons]
      omega
    · cases h
  · cases h

theorem length_escaped? {c : Char} (h : escaped? cs = some (c, rest)) :
    rest.length < cs.length := by
  unfold escaped? at h
  split at h
  · cases h
  · rename_i unit cs' hunit
    have hlt := length_codeUnit? hunit
    split at h
    · split at h
      · split at h
        · cases h
        · rename_i hlow
          have hlt' := length_codeUnit? hlow
          simp only [List.length_cons] at hlt
          split at h
          · obtain ⟨_, rfl⟩ := Prod.mk.inj (Option.some.inj h)
            omega
          · obtain ⟨_, rfl⟩ := Prod.mk.inj (Option.some.inj h)
            simp only [List.length_cons]
            omega
      · obtain ⟨_, rfl⟩ := Prod.mk.inj (Option.some.inj h)
        exact hlt
    · split at h
      all_goals
        obtain ⟨_, rfl⟩ := Prod.mk.inj (Option.some.inj h)
        exact hlt

theorem length_parseChar {c : Char} (h : parseChar cs = some (c, rest)) :
    rest.length < cs.length := by
  unfold parseChar at h
  split at h
  · simp only [List.length_cons]
    split at h
    case h_9 =>
      have := length_escaped? h
      omega
    case h_10 => cases h
    all_goals
      cases h
      omega
  · split at h
    · cases h
    · cases h
      exact Nat.lt_succ_self _
  · cases h

theorem length_parseChars {fuel : Nat} {s : List Char}
    (h : parseChars fuel cs = some (s, rest)) : s.length + rest.length + 1 ≤ cs.length := by
  induction fuel generalizing cs s rest with
  | zero => cases h
  | succ fuel ih =>
    rw [parseChars] at h
    split at h
    · rename_i hquote
      cases h
      obtain ⟨d, ds, rfl⟩ : ∃ d ds, cs = d :: ds := by
        cases cs with
        | nil => cases hquote
        | cons d ds => exact ⟨d, ds, rfl⟩
      simp
    · split at h
      · cases h
      · rename_i c cs' hchar
        have hlt := length_parseChar hchar
        split at h
        · cases h
        · rename_i s' rest' hchars
          cases h
          have := ih hchars
          simp only [List.length_cons]
          omega

theorem length_parseString {s : String}
    (h : parseString cs = some (s, rest)) : s.toList.length + rest.length + 2 ≤ cs.length := by
  unfold parseString at h
  split at h
  · obtain ⟨r, hr, heq⟩ := Option.map_eq_some_iff.mp h
    cases heq
    have := length_parseChars hr
    rw [String.toList_ofList, List.length_cons]
    omega
  · cases h

theorem length_readNumber {p : Char → Bool} {n : JsNumber}
    (h : JsNumber.readNumber (cs.takeWhile p) = some n) :
    (cs.dropWhile p).length + 1 ≤ cs.length := by
  have hsplit := congrArg List.length (List.takeWhile_append_dropWhile (p := p) (l := cs))
  rw [List.length_append] at hsplit
  have hne : (cs.takeWhile p).length ≠ 0 := by
    intro hzero
    rw [List.length_eq_zero_iff.mp hzero] at h
    cases h
  omega

/-! ## Property order -/

mutual

/-- Whether objects list their members in property order. -/
def Ordered : Json → Prop
  | arr items => ItemsOrdered items
  | obj members => fromEntries members = obj members ∧ MembersOrdered members
  | _ => True

def ItemsOrdered : List Json → Prop
  | [] => True
  | item :: items => Ordered item ∧ ItemsOrdered items

def MembersOrdered : List (String × Json) → Prop
  | [] => True
  | (_, value) :: members => Ordered value ∧ MembersOrdered members

end

theorem membersOrdered_iff (members : List (String × Json)) :
    MembersOrdered members ↔ ∀ m ∈ members, Ordered m.2 := by
  induction members with
  | nil => simp [MembersOrdered]
  | cons m members ih => rw [MembersOrdered, ih, List.forall_mem_cons]

/-- Array indices in order before other keys are in property order. -/
theorem propertyOrder_append {indices others : List (String × Json)}
    (hindices : ∀ e ∈ indices, (arrayIndex? e.1).isSome = true)
    (hothers : ∀ e ∈ others, (arrayIndex? e.1).isNone = true)
    (hsorted : indices.Pairwise fun e e' =>
      (arrayIndex? e.1).getD 0 ≤ (arrayIndex? e'.1).getD 0) :
    propertyOrder (indices ++ others) = indices ++ others := by
  have hnone : others.filter (fun e => (arrayIndex? e.1).isSome) = [] := by
    rw [List.filter_eq_nil_iff]
    intro e he
    simp [Option.isNone_iff_eq_none.mp (hothers e he)]
  have hsome : indices.filter (fun e => (arrayIndex? e.1).isNone) = [] := by
    rw [List.filter_eq_nil_iff]
    intro e he
    simpa using Option.isSome_iff_ne_none.mp (hindices e he)
  rw [propertyOrder, List.filter_append, List.filter_append, hnone, hsome,
    List.filter_eq_self.mpr hindices, List.filter_eq_self.mpr hothers, List.append_nil,
    List.nil_append, hsorted.insertionSort_eq]

/-- A list in property order stays as it is. -/
theorem propertyOrder_propertyOrder (entries : List (String × Json)) :
    propertyOrder (propertyOrder entries) = propertyOrder entries := by
  apply propertyOrder_append
  · intro e he
    rw [List.mem_insertionSort] at he
    exact (List.mem_filter.mp he).2
  · exact fun e he => (List.mem_filter.mp he).2
  · exact List.pairwise_insertionSort _ _

theorem ordered_ofMembers {members : List (String × Json)} (h : MembersOrdered members) :
    (ofMembers members).Ordered := by
  have hentries : MembersOrdered (Dict.ofList members).entries := by
    rw [membersOrdered_iff] at h ⊢
    intro m hm
    exact h m (Dict.mem_of_get?_ofList ((Dict.mem_entries _ _ _).mp hm))
  refine ⟨congrArg obj (propertyOrder_propertyOrder (Dict.ofList members).entries), ?_⟩
  rw [membersOrdered_iff] at hentries ⊢
  exact fun m hm => hentries m ((propertyOrder_perm _).subset hm)

/-! ## What is read -/

mutual

theorem parseValue_spec {fuel : Nat} {cs rest : List Char} {a : Json}
    (h : parseValue fuel cs = some (a, rest)) :
    a.Ordered ∧ size a + rest.length ≤ cs.length := by
  match fuel, h with
  | 0, h => simp [parseValue] at h
  | fuel + 1, h =>
    unfold parseValue at h
    split at h
    iterate 3
      · cases h
        refine ⟨trivial, ?_⟩
        simp only [size, List.length_cons]
        omega
    · obtain ⟨r, hr, heq⟩ := Option.map_eq_some_iff.mp h
      cases heq
      have := length_parseString hr
      refine ⟨trivial, ?_⟩
      simp only [size]
      omega
    · rename_i cs' _
      have hskip := length_skipSpace_le cs'
      rw [List.length_cons]
      split at h
      · rename_i hempty
        cases h
        rw [hempty, List.length_cons] at hskip
        refine ⟨trivial, ?_⟩
        simp only [size, sizeItems]
        omega
      · split at h
        · cases h
        · rename_i item cs₁ hitem
          obtain ⟨r, hr, heq⟩ := Option.map_eq_some_iff.mp h
          cases heq
          obtain ⟨hordered, hfirst⟩ := parseValue_spec hitem
          obtain ⟨hordereds, hrest⟩ := parseItems_spec hr
          have := length_skipSpace_le cs₁
          refine ⟨⟨hordered, hordereds⟩, ?_⟩
          simp only [size, sizeItems]
          omega
    · rename_i cs' _
      have hskip := length_skipSpace_le cs'
      rw [List.length_cons]
      split at h
      · rename_i hempty
        cases h
        have := size_ofMembers_le []
        rw [hempty, List.length_cons] at hskip
        simp only [sizeMembers] at this
        exact ⟨ordered_ofMembers trivial, by omega⟩
      · split at h
        · cases h
        · rename_i member cs₁ hmember
          obtain ⟨r, hr, heq⟩ := Option.map_eq_some_iff.mp h
          cases heq
          obtain ⟨hordered, hfirst⟩ := parseMember_spec hmember
          obtain ⟨hordereds, hrest⟩ := parseMembers_spec hr
          have := length_skipSpace_le cs₁
          have := size_ofMembers_le (member :: r.1)
          simp only [sizeMembers] at this
          exact ⟨ordered_ofMembers ⟨hordered, hordereds⟩, by omega⟩
    · obtain ⟨n, hn, heq⟩ := Option.map_eq_some_iff.mp h
      cases heq
      have := length_readNumber hn
      refine ⟨trivial, ?_⟩
      simp only [size]
      omega

theorem parseItems_spec {fuel : Nat} {cs rest : List Char} {items : List Json}
    (h : parseItems fuel cs = some (items, rest)) :
    ItemsOrdered items ∧ sizeItems items + rest.length + 1 ≤ cs.length := by
  match fuel, h with
  | 0, h => simp [parseItems] at h
  | fuel + 1, h =>
    unfold parseItems at h
    split at h
    · cases h
      refine ⟨trivial, ?_⟩
      simp only [sizeItems, List.length_cons]
      omega
    · rename_i cs' _
      have hskip := length_skipSpace_le cs'
      split at h
      · cases h
      · rename_i item cs₁ hitem
        obtain ⟨r, hr, heq⟩ := Option.map_eq_some_iff.mp h
        cases heq
        obtain ⟨hordered, hfirst⟩ := parseValue_spec hitem
        obtain ⟨hordereds, hrest⟩ := parseItems_spec hr
        have := length_skipSpace_le cs₁
        refine ⟨⟨hordered, hordereds⟩, ?_⟩
        simp only [sizeItems, List.length_cons]
        omega
    · cases h

theorem parseMember_spec {fuel : Nat} {cs rest : List Char} {member : String × Json}
    (h : parseMember fuel cs = some (member, rest)) :
    member.2.Ordered ∧ size member.2 + rest.length ≤ cs.length := by
  match fuel, h with
  | 0, h => simp [parseMember] at h
  | fuel + 1, h =>
    unfold parseMember at h
    split at h
    · cases h
    · rename_i key cs₁ hkey
      have hlt := length_parseString hkey
      have hskip := length_skipSpace_le cs₁
      split at h
      · rename_i cs₂ hcolon
        obtain ⟨r, hr, heq⟩ := Option.map_eq_some_iff.mp h
        cases heq
        obtain ⟨hordered, hvalue⟩ := parseValue_spec hr
        have := length_skipSpace_le cs₂
        rw [hcolon, List.length_cons] at hskip
        refine ⟨hordered, ?_⟩
        simp only at *
        omega
      · cases h

theorem parseMembers_spec {fuel : Nat} {cs rest : List Char} {members : List (String × Json)}
    (h : parseMembers fuel cs = some (members, rest)) :
    MembersOrdered members ∧ sizeMembers members + rest.length + 1 ≤ cs.length := by
  match fuel, h with
  | 0, h => simp [parseMembers] at h
  | fuel + 1, h =>
    unfold parseMembers at h
    split at h
    · cases h
      refine ⟨trivial, ?_⟩
      simp only [sizeMembers, List.length_cons]
      omega
    · rename_i cs' _
      have hskip := length_skipSpace_le cs'
      split at h
      · cases h
      · rename_i member cs₁ hmember
        obtain ⟨r, hr, heq⟩ := Option.map_eq_some_iff.mp h
        cases heq
        obtain ⟨hordered, hfirst⟩ := parseMember_spec hmember
        obtain ⟨hordereds, hrest⟩ := parseMembers_spec hr
        have := length_skipSpace_le cs₁
        refine ⟨⟨hordered, hordereds⟩, ?_⟩
        simp only [sizeMembers, List.length_cons]
        omega
    · cases h

end

variable {a : Json} {text : List Char}

theorem parse_eq_some (h : parse text = some a) :
    ∃ rest, parseValue (2 * text.length + 1) (skipSpace text) = some (a, rest) := by
  unfold parse at h
  split at h
  · rename_i value rest hvalue
    split at h
    · cases h
      exact ⟨rest, hvalue⟩
    · cases h
  · cases h

/-- A value is no larger than the text it is read from. -/
theorem size_parse_le (h : parse text = some a) :
    size a ≤ text.length := by
  obtain ⟨rest, hvalue⟩ := parse_eq_some h
  have := (parseValue_spec hvalue).2
  have := length_skipSpace_le text
  omega

/-- The text of a string stands for less than the string. -/
theorem size_parse_lt {s : String} (h : parse s.toList = some a) :
    size a < size (str s) := Nat.lt_succ_of_le (size_parse_le h)

/-- What is read lists its members in property order. -/
theorem ordered_parse (h : parse text = some a) : a.Ordered := by
  obtain ⟨rest, hvalue⟩ := parse_eq_some h
  exact (parseValue_spec hvalue).1

/-! ## Infinite numbers -/

mutual

/-- A value as `JSON.stringify` prints it. -/
def printed : Json → Json
  | num n =>
    if n = JsNumber.ofDecimal false 1 309 ∨ n = JsNumber.ofDecimal true 1 309 then null else num n
  | arr items => arr (printedItems items)
  | obj members => obj (printedMembers members)
  | a => a

def printedItems : List Json → List Json
  | [] => []
  | item :: items => printed item :: printedItems items

def printedMembers : List (String × Json) → List (String × Json)
  | [] => []
  | (key, value) :: members => (key, printed value) :: printedMembers members

end

end Json
