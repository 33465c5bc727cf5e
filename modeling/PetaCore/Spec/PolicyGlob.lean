import PetaCore.Core.PolicyGlob

/-!
# What a glob of a policy rule matches

A wildcard of a compiled glob stands for code units that are no line terminators, while that of a
glob stands for characters. The two are the same for every value exactly if the pattern has no
wildcard, and for every pattern exactly if the value has neither line terminators nor pairs of
surrogates.

Key results:
- `matchGlob_eq`: a compiled glob is a glob over code units
- `globHolds_of_fits`: values and patterns for which this does not matter
- `glob_means_glob`: these are all of them, over all values or over all patterns
-/

namespace PetaCore

open CodePoints Glob RegExp

variable {pattern : List Nat} {chs : List (List Nat)} {ch : List Nat} {s : List Nat} {c : Nat}

/-! ## Globs -/

/-- The symbol of a character: `*` and `?` are wildcards, every other one stands for itself. -/
def charSymbol (ch : List Nat) : Symbol (List Nat) :=
  if ch = ['*'.toNat] then .many else if ch = ['?'.toNat] then .one else .literal ch

/-- A value matches a pattern, both taken by characters. -/
def MatchesGlob (pattern value : List Nat) : Prop :=
  Matches (fun _ => True) ((split pattern).map charSymbol) (split value)

/-- The answer of the code is whether the value matches the pattern. -/
def GlobHolds (pattern value : List Nat) : Prop :=
  ∃ b, matchGlob pattern value = some b ∧ (b = true ↔ MatchesGlob pattern value)

/-- Whether a character is a wildcard. -/
def isWildcard (ch : List Nat) : Bool := ch == ['*'.toNat] || ch == ['?'.toNat]

/-- Whether a pattern has a wildcard. -/
def hasWildcard (pattern : List Nat) : Bool := (split pattern).any isWildcard

/-- Whether a value has a line terminator. -/
def hasLineTerminator (value : List Nat) : Bool := value.any isLineTerminator

/-! ## The compiled pattern -/

/-- The symbols of a character, over code units. -/
def unitSymbols (ch : List Nat) : List (Symbol Nat) :=
  if ch = ['*'.toNat] then [.many] else if ch = ['?'.toNat] then [.one] else ch.map .literal

/-- The characters that are escaped are the syntax characters but `*`. -/
theorem mem_escaped_iff (h : c ≠ '*'.toNat) :
    c ∈ escapedCharacters ↔ syntaxCharacters.contains c = true := by
  rw [List.contains_iff_mem]
  have hescaped : ∀ c ∈ escapedCharacters, c ∈ syntaxCharacters := by decide
  have hsyntax : ∀ c ∈ syntaxCharacters, c ≠ '*'.toNat → c ∈ escapedCharacters := by decide
  exact ⟨hescaped c, fun hc => hsyntax c hc h⟩

/-- No surrogate is a syntax character. -/
theorem syntax_eq_false (h : 0xD800 ≤ c) : syntaxCharacters.contains c = false := by
  have hlt : ∀ d ∈ syntaxCharacters, d < 0xD800 := by decide
  rw [← Bool.not_eq_true, List.contains_iff_mem]
  intro hc
  exact absurd (hlt c hc) (Nat.not_lt.mpr h)

theorem le_of_isHigh (h : isHigh c = true) : 0xD800 ≤ c := by
  simp only [isHigh, Bool.and_eq_true, decide_eq_true_eq] at h
  exact h.1

theorem le_of_isLow (h : isLow c = true) : 0xD800 ≤ c := by
  simp only [isLow, Bool.and_eq_true, decide_eq_true_eq] at h
  omega

theorem source_literal (h : syntaxCharacters.contains c = false) : source (.literal c) = [c] := by
  rw [source, h]
  rfl

theorem globSource_eq (h : IsPoint ch) : globSource ch = (unitSymbols ch).flatMap source := by
  unfold globSource unitSymbols
  split
  · rfl
  · rename_i hstar
    split
    · rfl
    · cases h with
      | inl h =>
        obtain ⟨c, rfl⟩ := h
        have hne : c ≠ '*'.toNat := fun hc => hstar (by rw [hc])
        have hmem := mem_escaped_iff hne
        simp only [List.singleton_infix_iff, hmem, List.map_cons, List.map_nil, List.flatMap_cons,
          List.flatMap_nil, List.append_nil, source]
      | inr h =>
        obtain ⟨h, l, rfl, hh, hl⟩ := h
        have hs := syntax_eq_false (le_of_isHigh hh)
        have hnot : ¬[h, l] <:+: escapedCharacters := by
          intro hoccurs
          have hmem : h ∈ escapedCharacters := hoccurs.subset List.mem_cons_self
          have hlt : ∀ d ∈ escapedCharacters, d < 0xD800 := by decide
          exact absurd (hlt h hmem) (Nat.not_lt.mpr (le_of_isHigh hh))
        rw [if_neg hnot]
        simp [source_literal hs, source_literal (syntax_eq_false (le_of_isLow hl))]

/-- The compiled pattern, over code units. -/
def unitPattern (pattern : List Nat) : List (Symbol Nat) := (split pattern).flatMap unitSymbols

theorem regexPattern_eq (pattern : List Nat) :
    regexPattern pattern = '^'.toNat :: (unitPattern pattern).flatMap source ++ ['$'.toNat] := by
  have hsource : ∀ chs : List (List Nat), (∀ ch ∈ chs, IsPoint ch) →
      chs.flatMap globSource = (chs.flatMap unitSymbols).flatMap source := by
    intro chs
    induction chs with
    | nil => intro _; rfl
    | cons ch chs ih =>
      intro h
      have htail : ∀ ch ∈ chs, IsPoint ch := fun x hx => h x (List.mem_cons_of_mem ch hx)
      rw [List.flatMap_cons, List.flatMap_cons, List.flatMap_append, ih htail,
        globSource_eq (h ch List.mem_cons_self)]
  rw [regexPattern, unitPattern, hsource _ fun _ => isPoint_of_mem]

/-- A compiled glob is a glob over code units whose wildcards stand for no line terminator. -/
theorem matchGlob_eq (h : pattern.length ≤ 512) (value : List Nat) :
    ∃ b, matchGlob pattern value = some b ∧
      (b = true ↔ Matches IsAny (unitPattern pattern) value) := by
  rw [matchGlob, if_neg (Nat.not_lt.mpr h), regexPattern_eq]
  exact test_source (unitPattern pattern) value

theorem globHolds_iff (h : pattern.length ≤ 512) (value : List Nat) :
    GlobHolds pattern value ↔
      (Matches IsAny (unitPattern pattern) value ↔ MatchesGlob pattern value) := by
  obtain ⟨b, hb, hmatch⟩ := matchGlob_eq h value
  constructor
  · intro hholds
    obtain ⟨b', hb', hglob⟩ := hholds
    obtain rfl : b = b' := Option.some.inj (hb.symm.trans hb')
    exact hmatch.symm.trans hglob
  · intro hiff
    exact ⟨b, hb, hmatch.trans hiff⟩

/-! ## Patterns without wildcards -/

theorem unitSymbols_of_not_wildcard (h : isWildcard ch = false) :
    unitSymbols ch = ch.map .literal := by
  simp only [isWildcard, Bool.or_eq_false_iff, beq_eq_false_iff_ne] at h
  rw [unitSymbols, if_neg h.1, if_neg h.2]

theorem charSymbol_of_not_wildcard (h : isWildcard ch = false) : charSymbol ch = .literal ch := by
  simp only [isWildcard, Bool.or_eq_false_iff, beq_eq_false_iff_ne] at h
  rw [charSymbol, if_neg h.1, if_neg h.2]

theorem unitPattern_of_not_hasWildcard (h : hasWildcard pattern = false) :
    unitPattern pattern = pattern.map .literal := by
  have hflat : ∀ chs : List (List Nat), chs.any isWildcard = false →
      chs.flatMap unitSymbols = chs.flatten.map .literal := by
    intro chs
    induction chs with
    | nil => intro _; rfl
    | cons ch chs ih =>
      intro h
      rw [List.any_cons, Bool.or_eq_false_iff] at h
      rw [List.flatMap_cons, unitSymbols_of_not_wildcard h.1, ih h.2, List.flatten_cons,
        List.map_append]
  rw [unitPattern, hflat _ h, flatten_split]

theorem charPattern_of_not_hasWildcard (h : hasWildcard pattern = false) :
    (split pattern).map charSymbol = (split pattern).map .literal := by
  apply List.map_congr_left
  intro ch hch
  exact charSymbol_of_not_wildcard (Bool.eq_false_iff.mpr (List.any_eq_false.mp h ch hch))

/-- Without wildcards both sides ask for the value itself. -/
theorem fits_of_not_hasWildcard (h : hasWildcard pattern = false) (value : List Nat) :
    Matches IsAny (unitPattern pattern) value ↔ MatchesGlob pattern value := by
  rw [MatchesGlob, unitPattern_of_not_hasWildcard h, charPattern_of_not_hasWildcard h,
    matches_literals_iff, matches_literals_iff]
  constructor
  · intro heq
    rw [heq]
  · intro heq
    rw [← flatten_split value, heq, flatten_split]

/-! ## Values without pairs -/

theorem isAny_of_mem {value : List Nat} (h : hasLineTerminator value = false) (hc : c ∈ value) :
    IsAny c :=
  Bool.eq_false_iff.mpr (List.any_eq_false.mp h c hc)

theorem hasLineTerminator_append {s t : List Nat} (h : hasLineTerminator (s ++ t) = false) :
    hasLineTerminator s = false ∧ hasLineTerminator t = false := by
  rw [hasLineTerminator, List.any_append, Bool.or_eq_false_iff] at h
  exact h

/-- A value without pairs of surrogates, read by code units. -/
def PairFree (s : List Nat) : Prop := split s = s.map fun c => [c]

theorem PairFree.tail (h : PairFree (c :: s)) : PairFree s := by
  obtain ⟨_, hrest⟩ := split_eq_cons h
  have hflat : (s.map fun c => [c]).flatten = s := by
    rw [← List.flatMap_def, List.flatMap_singleton']
  rw [hflat] at hrest
  exact hrest

theorem PairFree.of_append {s t : List Nat} (h : PairFree (s ++ t)) : PairFree t := by
  induction s with
  | nil => exact h
  | cons c s ih => exact ih h.tail

/-- Two code units in a row are not a pair. -/
theorem PairFree.not_pair {h l : Nat} (hs : PairFree (h :: l :: s)) (hh : isHigh h = true)
    (hl : isLow l = true) : False := by
  rw [PairFree, split_of_pair (by simp [hh, hl])] at hs
  cases hs

/-- In a value of single code units the two readings of a character are the same. -/
theorem matches_of_pairFree (hchs : ∀ ch ∈ chs, IsPoint ch) (hany : hasLineTerminator s = false)
    (hs : PairFree s) :
    Matches IsAny (chs.flatMap unitSymbols) s ↔
      Matches (fun _ => True) (chs.map charSymbol) (s.map fun c => [c]) := by
  induction chs generalizing s with
  | nil => simp
  | cons ch chs ih =>
    have htail : ∀ ch ∈ chs, IsPoint ch := fun x hx => hchs x (List.mem_cons_of_mem ch hx)
    rw [List.flatMap_cons, List.map_cons]
    by_cases hstar : ch = ['*'.toNat]
    · rw [unitSymbols, charSymbol, if_pos hstar, if_pos hstar, List.singleton_append,
        matches_many_iff, matches_many_iff]
      constructor
      · intro h
        obtain ⟨t, r, rfl, _, h⟩ := h
        have hr := (ih htail (hasLineTerminator_append hany).2 hs.of_append).mp h
        exact ⟨_, _, List.map_append, fun _ _ => trivial, hr⟩
      · intro h
        obtain ⟨t, r, hsplit, _, h⟩ := h
        obtain ⟨t, r, rfl, rfl, rfl⟩ := List.map_eq_append_iff.mp hsplit
        have hr := (ih htail (hasLineTerminator_append hany).2 hs.of_append).mpr h
        exact ⟨t, r, rfl, fun c hc => isAny_of_mem (hasLineTerminator_append hany).1 hc, hr⟩
    by_cases hone : ch = ['?'.toNat]
    · rw [unitSymbols, charSymbol, if_neg hstar, if_neg hstar, if_pos hone, if_pos hone,
        List.singleton_append, matches_one_iff, matches_one_iff]
      cases s with
      | nil => simp
      | cons c s =>
        have hc : IsAny c := isAny_of_mem hany List.mem_cons_self
        have hrest := ih htail (hasLineTerminator_append (s := [c]) hany).2 hs.tail
        simp [hc, hrest]
    · rw [unitSymbols, charSymbol, if_neg hstar, if_neg hstar, if_neg hone, if_neg hone]
      cases hchs ch List.mem_cons_self with
      | inl hpoint =>
        obtain ⟨c, rfl⟩ := hpoint
        rw [List.map_singleton, List.singleton_append, matches_literal_iff, matches_literal_iff]
        cases s with
        | nil => simp
        | cons d s =>
          have hrest := ih htail (hasLineTerminator_append (s := [d]) hany).2 hs.tail
          simp [hrest, and_comm]
      | inr hpoint =>
        obtain ⟨h, l, rfl, hh, hl⟩ := hpoint
        constructor
        · intro hmatch
          have hmatch' : Matches IsAny (.literal h :: .literal l :: chs.flatMap unitSymbols) s :=
            hmatch
          obtain ⟨t, rfl, hrest⟩ := matches_literal_iff.mp hmatch'
          obtain ⟨t, rfl, _⟩ := matches_literal_iff.mp hrest
          exact (hs.not_pair hh hl).elim
        · intro hmatch
          obtain ⟨t, ht, _⟩ := matches_literal_iff.mp hmatch
          cases s with
          | nil => cases ht
          | cons d s => cases ht

/-! ## Patterns that keep to the characters -/

/-- A character that a pattern may have if it is to match between characters only. -/
def IsWhole (ch : List Nat) : Prop :=
  (∃ c, ch = [c] ∧ isHigh c = false ∧ isLow c = false) ∨
    ∃ h l, ch = [h, l] ∧ isHigh h = true ∧ isLow l = true

theorem isWhole_of_mem (h : hasLoneSurrogate s = false) (hch : ch ∈ split s) : IsWhole ch := by
  cases isPoint_of_mem hch with
  | inl hpoint =>
    obtain ⟨c, rfl⟩ := hpoint
    have hlone := List.any_eq_false.mp h [c] hch
    simp only [List.length_singleton, BEq.rfl, List.any_cons, List.any_nil, Bool.or_false,
      Bool.true_and, Bool.or_eq_true, not_or, Bool.not_eq_true] at hlone
    exact .inl ⟨c, rfl, hlone.1, hlone.2⟩
  | inr hpoint => exact .inr hpoint

/-- The text of a whole character is one character, whatever comes after it. -/
theorem IsWhole.split_append (h : IsWhole ch) (s : List Nat) : split (ch ++ s) = ch :: split s := by
  obtain ⟨c, rfl, hc, _⟩ | ⟨h, l, rfl, hh, hl⟩ := h
  · exact split_cons_of_not_high hc s
  · exact split_of_pair (by simp [hh, hl]) s

/-- A trailing surrogate is left to a wildcard, since no whole character begins with one. -/
theorem matches_drop_low (hchs : ∀ ch ∈ chs, IsWhole ch) (hone : ['?'.toNat] ∉ chs) {l : Nat}
    (hl : isLow l = true) (h : Matches IsAny (chs.flatMap unitSymbols) (l :: s)) :
    Matches IsAny (chs.flatMap unitSymbols) s := by
  induction chs with
  | nil => cases h
  | cons ch chs ih =>
    have htail : ∀ ch ∈ chs, IsWhole ch := fun x hx => hchs x (List.mem_cons_of_mem ch hx)
    have hone' : ['?'.toNat] ∉ chs := fun hmem => hone (List.mem_cons_of_mem ch hmem)
    rw [List.flatMap_cons, unitSymbols] at h ⊢
    by_cases hstar : ch = ['*'.toNat]
    · rw [if_pos hstar, List.singleton_append] at h ⊢
      cases matches_many_cons_iff.mp h with
      | inl h => exact h.2
      | inr h =>
        exact matches_many_iff.mpr ⟨[], s, rfl, fun c hc => absurd hc List.not_mem_nil,
          ih htail hone' h⟩
    have hsingle : ch ≠ ['?'.toNat] := fun hch => hone (hch ▸ List.mem_cons_self)
    rw [if_neg hstar, if_neg hsingle] at h
    obtain ⟨c, rfl, _, hlow⟩ | ⟨h', l', rfl, hh', _⟩ := hchs ch List.mem_cons_self
    · obtain ⟨t, ht, _⟩ := matches_literal_iff.mp h
      rw [(List.cons.inj ht).1, hlow] at hl
      cases hl
    · obtain ⟨t, ht, _⟩ := matches_literal_iff.mp h
      rw [(List.cons.inj ht).1, isLow_eq_false hh'] at hl
      cases hl

/-- A pattern of whole characters, without `?`, finds the same by code units as by characters. -/
theorem matches_of_isWhole (hchs : ∀ ch ∈ chs, IsWhole ch) (hone : ['?'.toNat] ∉ chs)
    (hany : hasLineTerminator s = false) :
    Matches IsAny (chs.flatMap unitSymbols) s ↔
      Matches (fun _ => True) (chs.map charSymbol) (split s) := by
  induction chs generalizing s with
  | nil =>
    rw [List.flatMap_nil, List.map_nil, matches_nil_iff, matches_nil_iff]
    constructor
    · intro h
      rw [h, split_nil]
    · intro h
      rw [← flatten_split s, h, List.flatten_nil]
  | cons ch chs ih =>
    have htail : ∀ ch ∈ chs, IsWhole ch := fun x hx => hchs x (List.mem_cons_of_mem ch hx)
    have hone' : ['?'.toNat] ∉ chs := fun hmem => hone (List.mem_cons_of_mem ch hmem)
    rw [List.flatMap_cons, List.map_cons, unitSymbols, charSymbol]
    by_cases hstar : ch = ['*'.toNat]
    · rw [if_pos hstar, if_pos hstar, List.singleton_append, matches_many_iff, matches_many_iff]
      constructor
      · intro h
        obtain ⟨t, r, rfl, ht, h⟩ := h
        by_cases hcut : IsBoundary t r
        · have hr := (ih htail hone' (hasLineTerminator_append hany).2).mp h
          exact ⟨split t, split r, split_append hcut, fun _ _ => trivial, hr⟩
        · -- the wildcard ends within a pair, and takes the rest of it as well
          simp only [IsBoundary, not_forall, Bool.not_eq_false] at hcut
          obtain ⟨_, l, _, hhead, _, hlow⟩ := hcut
          obtain ⟨r, rfl⟩ : ∃ r', r = l :: r' := by
            cases r with
            | nil => cases hhead
            | cons c r => exact ⟨r, by rw [Option.some.inj hhead]⟩
          have hrest := matches_drop_low htail hone' hlow h
          have hany' := (hasLineTerminator_append (s := [l]) (hasLineTerminator_append hany).2).2
          have hcut' : IsBoundary (t ++ [l]) r := by
            intro h' l' hlast _ hhigh
            rw [List.getLast?_concat] at hlast
            rw [← Option.some.inj hlast] at hhigh
            rw [isLow_eq_false hhigh] at hlow
            cases hlow
          refine ⟨split (t ++ [l]), split r, ?_, fun _ _ => trivial,
            (ih htail hone' hany').mp hrest⟩
          rw [← split_append hcut', List.append_assoc, List.singleton_append]
      · intro h
        obtain ⟨xs, ys, hsplit, _, h⟩ := h
        obtain ⟨rfl, hys⟩ := split_of_append hsplit
        have hr := (ih htail hone' (hasLineTerminator_append hany).2).mpr (by rw [hys]; exact h)
        exact ⟨_, _, rfl, fun c hc => isAny_of_mem (hasLineTerminator_append hany).1 hc, hr⟩
    have hsingle : ch ≠ ['?'.toNat] := fun hch => hone (hch ▸ List.mem_cons_self)
    rw [if_neg hstar, if_neg hsingle, if_neg hstar, if_neg hsingle, matches_literals_append_iff,
      matches_literal_iff]
    constructor
    · intro h
      obtain ⟨t, rfl, h⟩ := h
      exact ⟨split t, (hchs ch List.mem_cons_self).split_append t,
        (ih htail hone' (hasLineTerminator_append hany).2).mp h⟩
    · intro h
      obtain ⟨ys, hsplit, h⟩ := h
      obtain ⟨rfl, hys⟩ := split_eq_cons hsplit
      exact ⟨ys.flatten, rfl,
        (ih htail hone' (hasLineTerminator_append hany).2).mpr (by rw [hys]; exact h)⟩

/-- The pattern has no wildcard; or the value has no line terminator, and it has no pair of
surrogates or the pattern neither `?` nor a surrogate on its own. -/
def Fits (pattern value : List Nat) : Prop :=
  hasWildcard pattern = false ∨ hasLineTerminator value = false ∧
    (hasPair value = false ∨ ['?'.toNat] ∉ split pattern ∧ hasLoneSurrogate pattern = false)

theorem globHolds_of_fits {pattern value : List Nat} (hlen : pattern.length ≤ 512)
    (h : Fits pattern value) : GlobHolds pattern value := by
  rw [globHolds_iff hlen]
  cases h with
  | inl hwild => exact fits_of_not_hasWildcard hwild value
  | inr h =>
    cases h.2 with
    | inl hpair =>
      have hs := split_of_hasPair_eq_false hpair
      rw [MatchesGlob, hs]
      exact matches_of_pairFree (fun _ => isPoint_of_mem) h.1 hs
    | inr hwhole => exact matches_of_isWhole (fun _ => isWhole_of_mem hwhole.2) hwhole.1 h.1

/-! ## Where the two differ -/

/-- Every wildcard of a pattern stands for a line feed. -/
def lineFed (c : Nat) : Nat := if c = '*'.toNat ∨ c = '?'.toNat then '\n'.toNat else c

theorem lineFed_of_le (h : 0xD800 ≤ c) : lineFed c = c := by
  apply if_neg
  intro hc
  have hlt : '*'.toNat < 0xD800 ∧ '?'.toNat < 0xD800 := by decide
  omega

/-- No surrogate comes or goes. -/
theorem isHigh_lineFed (c : Nat) : isHigh (lineFed c) = isHigh c := by
  unfold lineFed
  split
  · rename_i hc
    obtain rfl | rfl := hc <;> decide
  · rfl

theorem isLow_lineFed (c : Nat) : isLow (lineFed c) = isLow c := by
  unfold lineFed
  split
  · rename_i hc
    obtain rfl | rfl := hc <;> decide
  · rfl

theorem map_lineFed (h : IsPoint ch) (hwild : isWildcard ch = false) : ch.map lineFed = ch := by
  cases h with
  | inl h =>
    obtain ⟨c, rfl⟩ := h
    simp only [isWildcard, Bool.or_eq_false_iff, beq_eq_false_iff_ne, ne_eq, List.cons.injEq,
      and_true] at hwild
    rw [List.map_singleton, lineFed, if_neg (not_or.mpr hwild)]
  | inr h =>
    obtain ⟨h, l, rfl, hh, hl⟩ := h
    simp [lineFed_of_le (le_of_isHigh hh), lineFed_of_le (le_of_isLow hl)]

theorem matches_lineFed (h : ∀ ch ∈ chs, IsPoint ch) :
    Matches (fun _ => True) (chs.map charSymbol) (chs.map (List.map lineFed)) := by
  induction chs with
  | nil => exact .nil
  | cons ch chs ih =>
    have hrest := ih fun x hx => h x (List.mem_cons_of_mem ch hx)
    rw [List.map_cons, List.map_cons]
    by_cases hstar : ch = ['*'.toNat]
    · rw [charSymbol, if_pos hstar]
      exact matches_many_iff.mpr ⟨[ch.map lineFed], _, rfl, fun _ _ => trivial, hrest⟩
    by_cases hone : ch = ['?'.toNat]
    · rw [charSymbol, if_neg hstar, if_pos hone]
      exact .one trivial hrest
    · have hwild : isWildcard ch = false := by
        simp only [isWildcard, Bool.or_eq_false_iff, beq_eq_false_iff_ne]
        exact ⟨hstar, hone⟩
      rw [charSymbol, if_neg hstar, if_neg hone, map_lineFed (h ch List.mem_cons_self) hwild]
      exact .literal hrest

/-- The literals of a compiled pattern have the line terminators of the pattern. -/
theorem countP_unitSymbols (chs : List (List Nat)) :
    (chs.flatMap unitSymbols).countP (Symbol.isLiteral isLineTerminator) =
      chs.flatten.countP isLineTerminator := by
  induction chs with
  | nil => rfl
  | cons ch chs ih =>
    rw [List.flatMap_cons, List.flatten_cons, List.countP_append, List.countP_append, ih,
      unitSymbols]
    congr 1
    split
    · rename_i hstar
      rw [hstar]
      decide
    · split
      · rename_i hone
        rw [hone]
        decide
      · rw [List.countP_map]
        rfl

/-- There are more line terminators than literals for them. -/
theorem countP_lineFed (h : hasWildcard pattern = true) :
    pattern.countP isLineTerminator < (pattern.map lineFed).countP isLineTerminator := by
  obtain ⟨ch, hch, hwild⟩ := List.any_eq_true.mp h
  obtain ⟨c, rfl, hc⟩ : ∃ c, ch = [c] ∧ (c = '*'.toNat ∨ c = '?'.toNat) := by
    simp only [isWildcard, Bool.or_eq_true, beq_iff_eq] at hwild
    cases hwild with
    | inl hstar => exact ⟨_, hstar, .inl rfl⟩
    | inr hone => exact ⟨_, hone, .inr rfl⟩
  have hmem : c ∈ pattern := by
    rw [← flatten_split pattern]
    exact List.mem_flatten.mpr ⟨[c], hch, List.mem_singleton_self c⟩
  obtain ⟨a, b, rfl⟩ := List.append_of_mem hmem
  have hmono : ∀ s : List Nat, s.countP isLineTerminator ≤
      (s.map lineFed).countP isLineTerminator := by
    intro s
    rw [List.countP_map]
    refine List.countP_mono_left ?_
    intro d _ hd
    rw [Function.comp_apply, lineFed]
    split
    · rfl
    · exact hd
  have hnot : isLineTerminator c = false := by obtain rfl | rfl := hc <;> decide
  have hfed : isLineTerminator (lineFed c) = true := by obtain rfl | rfl := hc <;> decide
  have ha := hmono a
  have hb := hmono b
  rw [List.map_append, List.map_cons, List.countP_append, List.countP_append,
    List.countP_cons_of_neg (by simp [hnot]), List.countP_cons_of_pos hfed]
  omega

/-- A pattern with a wildcard misses a value. -/
theorem not_globHolds_lineFed (hlen : pattern.length ≤ 512) (h : hasWildcard pattern = true) :
    ¬GlobHolds pattern (pattern.map lineFed) := by
  rw [globHolds_iff hlen, MatchesGlob, split_map isHigh_lineFed isLow_lineFed]
  intro hiff
  have hmatch := hiff.mpr (matches_lineFed fun _ => isPoint_of_mem)
  have hcount := hmatch.countP_eq (q := isLineTerminator) fun _ hc => hc
  rw [unitPattern, countP_unitSymbols, flatten_split] at hcount
  exact absurd hcount (Nat.ne_of_gt (countP_lineFed h))

/-- `*` misses a value with a line terminator. -/
theorem not_globHolds_star {value : List Nat} (h : hasLineTerminator value = true) :
    ¬GlobHolds ['*'.toNat] value := by
  rw [globHolds_iff (by decide)]
  intro hiff
  have hglob : MatchesGlob ['*'.toNat] value :=
    matches_many_iff.mpr ⟨split value, [], by simp, fun _ _ => trivial, .nil⟩
  obtain ⟨t, r, rfl, ht, hr⟩ := matches_many_iff.mp (hiff.mpr hglob)
  obtain rfl := matches_nil_iff.mp hr
  obtain ⟨c, hc, hterm⟩ := List.any_eq_true.mp h
  rw [List.append_nil] at hc
  rw [ht c hc] at hterm
  cases hterm

/-- As many `?` as there are characters miss a value with a pair. -/
theorem not_globHolds_ones {value : List Nat} (h : hasPair value = true)
    (hlen : value.length ≤ 512) :
    ¬GlobHolds (List.replicate (split value).length '?'.toNat) value := by
  have hlt := length_split_lt h
  rw [globHolds_iff (by rw [List.length_replicate]; omega)]
  intro hiff
  have hsplit := split_replicate (c := '?'.toNat) (by decide) (split value).length
  have hglob : MatchesGlob (List.replicate (split value).length '?'.toNat) value := by
    rw [MatchesGlob, hsplit, List.map_replicate]
    exact matches_replicate_one_iff.mpr ⟨rfl, fun _ _ => trivial⟩
  have hmatch := hiff.mpr hglob
  have hunits : unitPattern (List.replicate (split value).length '?'.toNat) =
      List.replicate (split value).length .one := by
    have hone : unitSymbols ['?'.toNat] = [.one] := rfl
    rw [unitPattern, hsplit, List.flatMap_replicate, hone, List.flatten_replicate_singleton]
  rw [hunits, matches_replicate_one_iff] at hmatch
  omega

/-- A leading surrogate between two `*` misses a value in which it stands in pairs only. -/
theorem not_globHolds_surrogate {value : List Nat} (h : hasPair value = true)
    (hwhole : hasLoneSurrogate value = false) (hany : hasLineTerminator value = false) :
    ∃ c, ¬GlobHolds ['*'.toNat, c, '*'.toNat] value := by
  obtain ⟨ch, hch, hlen⟩ := List.any_eq_true.mp h
  obtain ⟨c, rfl⟩ | ⟨c, l, rfl, hc, hl⟩ := isPoint_of_mem hch
  · cases hlen
  refine ⟨c, ?_⟩
  rw [globHolds_iff (by simp)]
  intro hiff
  have hlow : isLow '*'.toNat = false := by decide
  have hsplit : split ['*'.toNat, c, '*'.toNat] = [['*'.toNat], [c], ['*'.toNat]] := by
    rw [split_cons_of_not_high (by decide), split_of_not_pair (by simp [-Char.reduceToNat, hlow])]
    rfl
  have hne : ∀ d : Nat, d < 0xD800 → [c] ≠ [d] := by
    intro d hd hcd
    have hle := le_of_isHigh hc
    rw [(List.cons.inj hcd).1] at hle
    omega
  have hstar := hne '*'.toNat (by decide)
  have hone := hne '?'.toNat (by decide)
  have hunits : unitPattern ['*'.toNat, c, '*'.toNat] = [.many, .literal c, .many] := by
    rw [unitPattern, hsplit, List.flatMap_cons, List.flatMap_cons, unitSymbols, unitSymbols,
      if_neg hstar, if_neg hone]
    rfl
  have hmatch : Matches IsAny (unitPattern ['*'.toNat, c, '*'.toNat]) value := by
    obtain ⟨xs, ys, hxs⟩ := List.append_of_mem hch
    obtain ⟨rfl, _⟩ := split_of_append hxs
    obtain ⟨hxs, hrest⟩ := hasLineTerminator_append hany
    have hys := hasLineTerminator_append (s := [c]) hrest
    rw [hunits, matches_many_iff]
    refine ⟨xs.flatten, _, rfl, fun _ => isAny_of_mem hxs, .literal ?_⟩
    exact matches_many_iff.mpr ⟨_, [], (List.append_nil _).symm, fun _ => isAny_of_mem hys.2, .nil⟩
  -- a glob would find the surrogate on its own
  have hglob := hiff.mp hmatch
  rw [MatchesGlob, hsplit, List.map_cons, List.map_cons, charSymbol, charSymbol, if_neg hstar,
    if_neg hone, if_pos rfl, matches_many_iff] at hglob
  obtain ⟨xs, ys, hsplit', _, hrest⟩ := hglob
  obtain ⟨zs, rfl, _⟩ := matches_literal_iff.mp hrest
  have hmem : [c] ∈ split value := by simp [hsplit']
  have hlone := List.any_eq_false.mp hwhole [c] hmem
  simp [hc] at hlone

/-- Tool and server globs are globs for the patterns and values that fit, and for all values or all
patterns only for those: a pattern finds what it should in every value exactly if it has no
wildcard, and a value is found by every pattern that it should be exactly if it has neither line
terminators nor pairs of surrogates. -/
theorem glob_means_glob (pattern : List Nat) (hlen : pattern.length ≤ 512) :
    (∀ value, Fits pattern value →
      ∃ b, matchGlob pattern value = some b ∧ (b = true ↔ MatchesGlob pattern value)) ∧
    ((∀ value, GlobHolds pattern value) ↔ hasWildcard pattern = false) ∧
    ∀ value, hasLoneSurrogate value = false ∨ value.length ≤ 512 →
      ((∀ p : List Nat, p.length ≤ 512 → GlobHolds p value) ↔
        hasLineTerminator value = false ∧ hasPair value = false) := by
  refine ⟨fun value hfits => globHolds_of_fits hlen hfits, ?_, ?_⟩
  · constructor
    · intro h
      by_contra hwild
      exact not_globHolds_lineFed hlen (Bool.not_eq_false _ ▸ hwild) (h _)
    · intro h value
      exact globHolds_of_fits hlen (.inl h)
  · intro value hvalue
    constructor
    · intro h
      have hterm : hasLineTerminator value = false := by
        by_contra hterm
        exact not_globHolds_star (Bool.not_eq_false _ ▸ hterm) (h _ (by decide))
      refine ⟨hterm, ?_⟩
      by_contra hpair
      rw [Bool.not_eq_false] at hpair
      cases hvalue with
      | inl hwhole =>
        obtain ⟨c, hc⟩ := not_globHolds_surrogate hpair hwhole hterm
        exact hc (h _ (by simp))
      | inr hshort =>
        refine not_globHolds_ones hpair hshort (h _ ?_)
        rw [List.length_replicate]
        exact (length_split_le value).trans hshort
    · intro h p hp
      exact globHolds_of_fits hp (.inr ⟨h.1, .inl h.2⟩)

/-- A text as its code units. -/
private def units (s : String) : List Nat := s.toList.flatMap Json.codeUnits

theorem glob_means_glob_delete : matchGlob (units "delete*") (units "deleteNote") = some true := by
  have hfits : Fits (units "delete*") (units "deleteNote") :=
    .inr ⟨by decide, .inl (by decide)⟩
  obtain ⟨b, hb, hiff⟩ := (glob_means_glob (units "delete*") (by decide)).1 _ hfits
  have hpattern : (split (units "delete*")).map charSymbol =
      (split (units "delete")).map .literal ++ [.many] := by decide
  have hvalue : split (units "deleteNote") = split (units "delete") ++ split (units "Note") := by
    decide
  have hglob : MatchesGlob (units "delete*") (units "deleteNote") := by
    rw [MatchesGlob, hpattern, hvalue, matches_literals_append_iff]
    exact ⟨_, rfl, matches_many_iff.mpr ⟨_, [], (List.append_nil _).symm, fun _ _ => trivial, .nil⟩⟩
  rw [hb, hiff.mpr hglob]

/-- A pattern for everything misses a value with a line feed. -/
theorem glob_misses_line_feed :
    ¬∀ pattern value : List Nat, pattern.length ≤ 512 →
      ∃ b, matchGlob pattern value = some b ∧ (b = true ↔ MatchesGlob pattern value) := by
  intro h
  exact @not_globHolds_star (units "delete\nNote") (by decide) (h _ _ (by decide))

end PetaCore
