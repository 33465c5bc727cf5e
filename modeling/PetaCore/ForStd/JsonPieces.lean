import PetaCore.ForStd.JsonParse
import PetaCore.ForStd.SplitJoin

/-!
# Replacing a key in the text of a JSON value

The text of a value consists of string literals, for its strings and the names of its members, and
of the characters between them. A replacement in the whole text is one in the strings of the value
when the key has no quote, when it occurs neither between the literals nor in a name, and when the
replacement in the literal of a string is the literal of the string with the replacement.

- `mapStrings`: a value with other strings
- `Keeps`: when the replacement in the text keeps to the strings
- `replace_chars`: the replacement in the text of a value
-/

namespace Json

/-! ## Values with other strings -/

mutual

/-- Apply a function to the strings of a value, not to the names of its members. -/
def mapStrings (f : String → String) : Json → Json
  | str s => str (f s)
  | arr items => arr (mapItemStrings f items)
  | obj members => obj (mapMemberStrings f members)
  | a => a

def mapItemStrings (f : String → String) : List Json → List Json
  | [] => []
  | item :: items => mapStrings f item :: mapItemStrings f items

def mapMemberStrings (f : String → String) : List (String × Json) → List (String × Json)
  | [] => []
  | (name, value) :: members => (name, mapStrings f value) :: mapMemberStrings f members

end

theorem mapMemberStrings_eq_map (f : String → String) (members : List (String × Json)) :
    mapMemberStrings f members = members.map fun m => (m.1, mapStrings f m.2) := by
  induction members with
  | nil => rfl
  | cons m members ih =>
    obtain ⟨name, value⟩ := m
    rw [mapMemberStrings, List.map_cons, ih]

mutual

/-- A value that a program holds stays one with other strings. -/
theorem held_mapStrings (f : String → String) (a : Json) (h : a.Held) :
    (mapStrings f a).Held := by
  match a with
  | null | bool _ | num _ | str _ =>
    simp only [mapStrings]
    exact h
  | arr items =>
    rw [mapStrings, Held]
    exact itemsHeld_mapStrings f items (by rwa [Held] at h)
  | obj members =>
    rw [Held] at h
    rw [mapStrings, Held]
    refine ⟨?_, ?_, membersHeld_mapStrings f members h.2.2⟩
    · rw [mapMemberStrings_eq_map, List.map_map]
      exact h.1
    · rw [mapMemberStrings_eq_map]
      exact fromEntries_map h.2.1 fun m => mapStrings f m.2
termination_by sizeOf a

theorem itemsHeld_mapStrings (f : String → String) (items : List Json) (h : ItemsHeld items) :
    ItemsHeld (mapItemStrings f items) := by
  match items with
  | [] => trivial
  | item :: items =>
    rw [ItemsHeld] at h
    rw [mapItemStrings, ItemsHeld]
    exact ⟨held_mapStrings f item h.1, itemsHeld_mapStrings f items h.2⟩
termination_by sizeOf items

theorem membersHeld_mapStrings (f : String → String) (members : List (String × Json))
    (h : MembersHeld members) : MembersHeld (mapMemberStrings f members) := by
  match members with
  | [] => trivial
  | (name, value) :: members =>
    rw [MembersHeld] at h
    rw [mapMemberStrings, MembersHeld]
    exact ⟨held_mapStrings f value h.1, membersHeld_mapStrings f members h.2⟩
termination_by sizeOf members

end

/-! ## Pieces of a text -/

/-- A piece of the text of a value. -/
inductive Piece where
  /-- a character outside the string literals -/
  | plain (c : Char)
  | name (s : String)
  | leaf (s : String)

namespace Piece

def text : Piece → List Char
  | plain c => [c]
  | name s | leaf s => quote s

/-- The text with the strings emptied. -/
def bare : Piece → List Char
  | plain c => [c]
  | name _ | leaf _ => ['"', '"']

def mapLeaf (f : String → String) : Piece → Piece
  | leaf s => leaf (f s)
  | p => p

end Piece

mutual

def pieces : Json → List Piece
  | null => (chars null).map .plain
  | bool b => (chars (bool b)).map .plain
  | num n => (chars (num n)).map .plain
  | str s => [.leaf s]
  | arr [] => [.plain '[', .plain ']']
  | arr (item :: items) => .plain '[' :: (pieces item ++ itemsPieces items)
  | obj [] => [.plain '\x7b', .plain '\x7d']
  | obj ((name, value) :: members) =>
    .plain '\x7b' :: .name name :: .plain ':' :: (pieces value ++ membersPieces members)

def itemsPieces : List Json → List Piece
  | [] => [.plain ']']
  | item :: items => .plain ',' :: (pieces item ++ itemsPieces items)

def membersPieces : List (String × Json) → List Piece
  | [] => [.plain '\x7d']
  | (name, value) :: members =>
    .plain ',' :: .name name :: .plain ':' :: (pieces value ++ membersPieces members)

end

theorem flatMap_plain (cs : List Char) : (cs.map Piece.plain).flatMap Piece.text = cs := by
  induction cs with
  | nil => rfl
  | cons c cs ih => rw [List.map_cons, List.flatMap_cons, ih]; rfl

theorem map_mapLeaf_plain (f : String → String) (cs : List Char) :
    (cs.map Piece.plain).map (Piece.mapLeaf f) = cs.map Piece.plain := by
  rw [List.map_map]
  rfl

mutual

/-- The pieces make up the text. -/
theorem flatMap_pieces (a : Json) : (pieces a).flatMap Piece.text = chars a := by
  match a with
  | null | bool _ | num _ => rw [pieces, flatMap_plain]
  | str s => rw [pieces, chars]; simp [Piece.text]
  | arr [] => rw [pieces, chars]; rfl
  | arr (item :: items) =>
    rw [pieces, chars, List.flatMap_cons, List.flatMap_append, flatMap_pieces item,
      flatMap_itemsPieces items]
    rfl
  | obj [] => rw [pieces, chars]; rfl
  | obj ((name, value) :: members) =>
    rw [pieces, chars, List.flatMap_cons, List.flatMap_cons, List.flatMap_cons,
      List.flatMap_append, flatMap_pieces value, flatMap_membersPieces members]
    rfl
termination_by sizeOf a

theorem flatMap_itemsPieces (items : List Json) :
    (itemsPieces items).flatMap Piece.text = itemsChars items := by
  match items with
  | [] => rw [itemsPieces, itemsChars]; rfl
  | item :: items =>
    rw [itemsPieces, itemsChars, List.flatMap_cons, List.flatMap_append, flatMap_pieces item,
      flatMap_itemsPieces items]
    rfl
termination_by sizeOf items

theorem flatMap_membersPieces (members : List (String × Json)) :
    (membersPieces members).flatMap Piece.text = membersChars members := by
  match members with
  | [] => rw [membersPieces, membersChars]; rfl
  | (name, value) :: members =>
    rw [membersPieces, membersChars, List.flatMap_cons, List.flatMap_cons, List.flatMap_cons,
      List.flatMap_append, flatMap_pieces value, flatMap_membersPieces members]
    rfl
termination_by sizeOf members

end

mutual

theorem pieces_mapStrings (f : String → String) (a : Json) :
    pieces (mapStrings f a) = (pieces a).map (Piece.mapLeaf f) := by
  match a with
  | null | bool _ | num _ => simp only [mapStrings, pieces, map_mapLeaf_plain]
  | str s => simp only [mapStrings, pieces]; rfl
  | arr [] => simp only [mapStrings, mapItemStrings, pieces]; rfl
  | arr (item :: items) =>
    simp only [mapStrings, mapItemStrings, pieces, List.map_cons, List.map_append,
      pieces_mapStrings f item, itemsPieces_mapStrings f items]
    rfl
  | obj [] => simp only [mapStrings, mapMemberStrings, pieces]; rfl
  | obj ((name, value) :: members) =>
    simp only [mapStrings, mapMemberStrings, pieces, List.map_cons, List.map_append,
      pieces_mapStrings f value, membersPieces_mapStrings f members]
    rfl
termination_by sizeOf a

theorem itemsPieces_mapStrings (f : String → String) (items : List Json) :
    itemsPieces (mapItemStrings f items) = (itemsPieces items).map (Piece.mapLeaf f) := by
  match items with
  | [] => simp only [mapItemStrings, itemsPieces]; rfl
  | item :: items =>
    simp only [mapItemStrings, itemsPieces, List.map_cons, List.map_append,
      pieces_mapStrings f item, itemsPieces_mapStrings f items]
    rfl
termination_by sizeOf items

theorem membersPieces_mapStrings (f : String → String) (members : List (String × Json)) :
    membersPieces (mapMemberStrings f members) =
      (membersPieces members).map (Piece.mapLeaf f) := by
  match members with
  | [] => simp only [mapMemberStrings, membersPieces]; rfl
  | (name, value) :: members =>
    simp only [mapMemberStrings, membersPieces, List.map_cons, List.map_append,
      pieces_mapStrings f value, membersPieces_mapStrings f members]
    rfl
termination_by sizeOf members

end

/-! ## The replacement -/

/-- What stands between the quotes of a literal. -/
def body (s : String) : List Char := s.toList.flatMap escapeChar

/-- The replacement in a string. -/
def replaceIn (key value : List Char) (s : String) : String :=
  String.ofList (SplitJoin.replace key value s.toList)

/-- The replacement in a piece of a text is one in its string, if anything changes. -/
def Piece.Keeps (key value : List Char) : Piece → Prop
  | plain _ => True
  | name s => ¬key <:+: body s
  | leaf s => SplitJoin.replace key value (body s) = body (replaceIn key value s)

section

variable {key value : List Char}

/-- The replacement piece by piece; the gap is what has been read since the last literal. -/
theorem replace_pieces (hkey : key ≠ []) (hquote : '"' ∉ key) (ps : List Piece)
    (gap : List Char) (houtside : ¬key <:+: gap ++ ps.flatMap Piece.bare)
    (hkeeps : ∀ p ∈ ps, p.Keeps key value) :
    SplitJoin.replace key value (gap ++ ps.flatMap Piece.text) =
      gap ++ (ps.map (Piece.mapLeaf (replaceIn key value))).flatMap Piece.text := by
  induction ps generalizing gap with
  | nil =>
    rw [List.flatMap_nil, List.append_nil] at houtside ⊢
    rw [SplitJoin.replace_eq_self houtside]
    simp
  | cons p ps ih =>
    have hrest : ∀ p ∈ ps, p.Keeps key value := fun p hp =>
      hkeeps p (List.mem_cons_of_mem _ hp)
    -- a literal, of which the body becomes another one, and what follows it
    have hliteral : ∀ old new : List Char, SplitJoin.replace key value old = new →
        ¬key <:+: gap ++ ('"' :: '"' :: ps.flatMap Piece.bare) →
        SplitJoin.replace key value
            (gap ++ ('"' :: (old ++ ['"']) ++ ps.flatMap Piece.text)) =
          gap ++ ('"' :: (new ++ ['"']) ++
            (ps.map (Piece.mapLeaf (replaceIn key value))).flatMap Piece.text) := by
      intro old new hnew hbare
      have hgap : ¬key <:+: gap := fun h =>
        hbare (h.trans (List.prefix_append gap _).isInfix)
      have htail : ¬key <:+: [] ++ ps.flatMap Piece.bare := by
        intro h
        apply hbare
        rw [List.nil_append] at h
        refine h.trans (List.IsSuffix.isInfix ⟨gap ++ ['"', '"'], ?_⟩)
        simp
      have hps := ih [] htail hrest
      rw [List.nil_append, List.nil_append] at hps
      rw [List.cons_append, List.append_assoc, List.singleton_append,
        SplitJoin.replace_append_sep hkey hquote, SplitJoin.replace_append_sep hkey hquote, hps,
        SplitJoin.replace_eq_self hgap, hnew]
      simp
    rw [List.flatMap_cons] at houtside ⊢
    rw [List.map_cons, List.flatMap_cons]
    have hp := hkeeps p List.mem_cons_self
    cases p with
    | plain c =>
      have hmore := ih (gap ++ [c]) (by simpa [Piece.bare] using houtside) hrest
      simpa [Piece.text, Piece.mapLeaf] using hmore
    | name s => exact hliteral (body s) (body s) (SplitJoin.replace_eq_self hp) houtside
    | leaf s => exact hliteral (body s) (body (replaceIn key value s)) hp houtside

/-- The key has no quote, does not occur outside the literals, and every literal keeps its form. -/
structure KeepsPieces (key value : List Char) (a : Json) : Prop where
  noQuote : '"' ∉ key
  outside : ¬key <:+: (pieces a).flatMap Piece.bare
  pieces : ∀ p ∈ pieces a, p.Keeps key value

/-- The key is neither in the text nor in a string. -/
structure Lacks (key : List Char) (a : Json) : Prop where
  text : ¬key <:+: chars a
  leaves : ∀ s, .leaf s ∈ pieces a → ¬key <:+: s.toList

/-- The replacement in the text of a value keeps to its strings. -/
def Keeps (key value : List Char) (a : Json) : Prop := Lacks key a ∨ KeepsPieces key value a

theorem map_mapLeaf_eq_self {f : String → String} {ps : List Piece}
    (h : ∀ s, .leaf s ∈ ps → f s = s) : ps.map (Piece.mapLeaf f) = ps := by
  apply (List.map_congr_left (g := id) ?_).trans (List.map_id ps)
  intro p hp
  cases p with
  | plain c => rfl
  | name s => rfl
  | leaf s => exact congrArg Piece.leaf (h s hp)

/-- The replacement in the text of a value is one in its strings. -/
theorem replace_chars (hkey : key ≠ []) {a : Json} (h : Keeps key value a) :
    SplitJoin.replace key value (chars a) = chars (mapStrings (replaceIn key value) a) := by
  rw [← flatMap_pieces (mapStrings _ a), pieces_mapStrings]
  cases h with
  | inl hlacks =>
    have hself : ∀ s, .leaf s ∈ pieces a → replaceIn key value s = s := by
      intro s hs
      rw [replaceIn, SplitJoin.replace_eq_self (hlacks.leaves s hs), String.ofList_toList]
    rw [SplitJoin.replace_eq_self hlacks.text, map_mapLeaf_eq_self hself, flatMap_pieces]
  | inr hkeeps =>
    have hpieces := replace_pieces hkey hkeeps.noQuote (pieces a) [] hkeeps.outside hkeeps.pieces
    rwa [List.nil_append, List.nil_append, flatMap_pieces] at hpieces

/-- The text that comes out is read back as the value with the strings replaced. -/
theorem parse_replace (hkey : key ≠ []) {a : Json} (ha : a.Held) (h : Keeps key value a) :
    parse (SplitJoin.replace key value (stringify a).toList) =
      some (mapStrings (replaceIn key value) a) := by
  have hparse := parse_stringify (held_mapStrings (replaceIn key value) a ha)
  rwa [stringify, String.toList_ofList, ← replace_chars hkey h,
    ← String.toList_ofList (l := chars a), ← stringify] at hparse

end

/-! ## Plain texts -/

/-- A character that is printed as it is. -/
def isPlain (c : Char) : Bool := escapeChar c == [c]

theorem flatMap_escapeChar_plain {cs : List Char} (h : ∀ c ∈ cs, isPlain c = true) :
    cs.flatMap escapeChar = cs := by
  induction cs with
  | nil => rfl
  | cons c cs ih =>
    have hc : escapeChar c = [c] := by simpa [isPlain] using h c List.mem_cons_self
    rw [List.flatMap_cons, hc, ih fun d hd => h d (List.mem_cons_of_mem _ hd)]
    rfl

/-- Nothing has to be printed in another way when the string and the value are plain. -/
theorem Piece.keeps_leaf_of_plain {key value : List Char} {s : String}
    (hs : ∀ c ∈ s.toList, isPlain c = true) (hvalue : ∀ c ∈ value, isPlain c = true) :
    (Piece.leaf s).Keeps key value := by
  have hplain : ∀ c ∈ SplitJoin.replace key value s.toList, isPlain c = true := by
    intro c hc
    cases SplitJoin.mem_replace hc with
    | inl hc => exact hvalue c hc
    | inr hc => exact hs c hc
  show SplitJoin.replace key value (s.toList.flatMap escapeChar) =
    (replaceIn key value s).toList.flatMap escapeChar
  rw [flatMap_escapeChar_plain hs, replaceIn, String.toList_ofList,
    flatMap_escapeChar_plain hplain]

end Json
