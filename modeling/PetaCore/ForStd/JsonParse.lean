import PetaCore.ForStd.Dict
import PetaCore.ForStd.JsDouble

/-!
# JSON.parse

A parser for JSON texts, and that it reads what `JSON.stringify` prints. Strings hold no lone
surrogates here: one that a text escapes is read as U+FFFD.

Key results:
- `JsNumber.readNumber_toChars`: a printed number is read back
- `Json.parse_stringify_eq_reread`: what a printed value is read as
- `Json.parse_stringify`: a value that a program holds is read back
-/

/-! ## Numbers -/

namespace JsNumber

/-- Digits, at least one. -/
def isDigits (cs : List Char) : Bool := !cs.isEmpty && cs.all (·.isDigit)

/-- Digits without a leading zero. -/
def isInteger (cs : List Char) : Bool :=
  isDigits cs && (cs.length == 1 || cs.head? != some '0')

/-- What stands behind the `e`. -/
def readExponent : List Char → Option Int
  | '+' :: ds => if isDigits ds then some (Nat.ofDigitChars 10 ds 0) else none
  | '-' :: ds => if isDigits ds then some (-Nat.ofDigitChars 10 ds 0) else none
  | ds => if isDigits ds then some (Nat.ofDigitChars 10 ds 0) else none

/-- Mantissa digits as a number, and exponent, of a number without sign. -/
def readUnsigned (cs : List Char) : Option (Nat × Int) :=
  let mantissa := cs.takeWhile (· != 'e')
  let int := mantissa.takeWhile (· != '.')
  let frac? := match mantissa.dropWhile (· != '.') with
    | [] => some []
    | _ :: ds => if isDigits ds then some ds else none
  let exponent? := match cs.dropWhile (· != 'e') with
    | [] => some 0
    | _ :: rest => readExponent rest
  match frac?, exponent? with
  | some frac, some exponent =>
    if isInteger int then some (Nat.ofDigitChars 10 (int ++ frac) 0, exponent - frac.length)
    else none
  | _, _ => none

/-- A number of a JSON text. -/
def readNumber (cs : List Char) : Option JsNumber :=
  let negative := cs.head? == some '-'
  let unsigned := (if negative then cs.tail else cs).map fun c => if c = 'E' then 'e' else c
  (readUnsigned unsigned).map fun r => (ofDecimal negative r.1 r.2).toDouble

/-- A number in parts: the digits before and after the point, and the exponent. -/
def layout (int frac : List Char) (exponent : Option Int) : List Char :=
  int ++ (if frac = [] then [] else '.' :: frac) ++
    match exponent with
    | none => []
    | some x => 'e' :: (if 0 ≤ x then '+' else '-') :: Nat.toDigits 10 x.natAbs

theorem isDigits_toDigits (m : Nat) : isDigits (Nat.toDigits 10 m) = true := by
  have hne : Nat.toDigits 10 m ≠ [] := Nat.toDigits_ne_nil
  have hall : (Nat.toDigits 10 m).all (·.isDigit) = true :=
    List.all_eq_true.mpr fun c hc => digit_of_mem hc
  simp [isDigits, hne, hall]

theorem readExponent_printed (x : Int) :
    readExponent ((if 0 ≤ x then '+' else '-') :: Nat.toDigits 10 x.natAbs) = some x := by
  have hdigits := isDigits_toDigits x.natAbs
  have hvalue : Nat.ofDigitChars 10 (Nat.toDigits 10 x.natAbs) 0 = x.natAbs :=
    Nat.ofDigitChars_ten_toDigits
  by_cases hx : 0 ≤ x
  · rw [if_pos hx, readExponent, if_pos hdigits, hvalue]
    have : (x.natAbs : Int) = x := Int.natAbs_of_nonneg hx
    rw [this]
  · rw [if_neg hx, readExponent, if_pos hdigits, hvalue]
    congr 1
    omega

/-- The parts of a number are read back. -/
theorem readUnsigned_layout {int frac : List Char} {exponent : Option Int}
    (hint : isInteger int = true) (hfrac : ∀ c ∈ frac, c.isDigit = true) :
    readUnsigned (layout int frac exponent) =
      some (Nat.ofDigitChars 10 (int ++ frac) 0, exponent.getD 0 - frac.length) := by
  have hint' : ∀ c ∈ int, c.isDigit = true := by
    simp only [isInteger, isDigits, Bool.and_eq_true, List.all_eq_true] at hint
    exact hint.1.2
  -- the text is cut at the `e`, and what comes before it at the point
  have hmantissa : ∀ c ∈ int ++ (if frac = [] then [] else '.' :: frac), (c != 'e') = true := by
    intro c hc
    cases List.mem_append.mp hc with
    | inl hc => exact ne_of_isDigit (hint' c hc) rfl
    | inr hc =>
      split at hc
      · cases hc
      · cases List.mem_cons.mp hc with
        | inl hc =>
          rw [hc]
          rfl
        | inr hc => exact ne_of_isDigit (hfrac c hc) rfl
  have hcut : (layout int frac exponent).takeWhile (· != 'e') =
        int ++ (if frac = [] then [] else '.' :: frac) ∧
      (layout int frac exponent).dropWhile (· != 'e') =
        match exponent with
        | none => []
        | some x => 'e' :: (if 0 ≤ x then '+' else '-') :: Nat.toDigits 10 x.natAbs := by
    cases exponent with
    | none =>
      rw [layout, List.append_nil]
      exact takeWhile_self hmantissa
    | some x => exact takeWhile_all hmantissa 'e' _ rfl
  have hint'' : ∀ c ∈ int, (c != '.') = true := fun c hc => ne_of_isDigit (hint' c hc) rfl
  have hpoint : (int ++ (if frac = [] then [] else '.' :: frac)).takeWhile (· != '.') = int ∧
      (int ++ (if frac = [] then [] else '.' :: frac)).dropWhile (· != '.') =
        if frac = [] then [] else '.' :: frac := by
    by_cases hempty : frac = []
    · rw [if_pos hempty, List.append_nil]
      exact takeWhile_self hint''
    · rw [if_neg hempty]
      exact takeWhile_all hint'' '.' frac rfl
  have hfrac? : (match (if frac = [] then [] else '.' :: frac) with
      | [] => some []
      | _ :: ds => if isDigits ds then some ds else none) = some frac := by
    by_cases hempty : frac = []
    · rw [if_pos hempty, hempty]
    · have hdigits : isDigits frac = true := by
        simp only [isDigits, Bool.and_eq_true, List.all_eq_true]
        exact ⟨by simp [hempty], hfrac⟩
      rw [if_neg hempty]
      exact if_pos hdigits
  have hexponent? : (match (match exponent with
        | none => []
        | some x => 'e' :: (if 0 ≤ x then '+' else '-') :: Nat.toDigits 10 x.natAbs) with
      | [] => some 0
      | _ :: rest => readExponent rest) = some (exponent.getD 0) := by
    cases exponent with
    | none => rfl
    | some x => exact readExponent_printed x
  simp only [readUnsigned, hcut.1, hcut.2, hpoint.1, hpoint.2, hfrac?, hexponent?, if_pos hint]

/-- No number but zero is printed with a leading zero. -/
theorem head?_toDigits {m : Nat} (hm : 0 < m) : (Nat.toDigits 10 m).head? ≠ some '0' := by
  induction m using Nat.strongRecOn with
  | ind m ih =>
    rw [Nat.toDigits_eq_if (by decide)]
    split
    · rename_i hlt
      have hdigit : ∀ d < 10, 0 < d → d.digitChar ≠ '0' := by decide
      simpa using hdigit m hlt hm
    · rename_i hge
      have hne : Nat.toDigits 10 (m / 10) ≠ [] := Nat.toDigits_ne_nil
      rw [List.head?_append_of_ne_nil _ hne]
      exact ih (m / 10) (by omega) (by omega)

theorem isInteger_of_digits {cs : List Char} (hne : cs ≠ [])
    (hdigits : ∀ c ∈ cs, c.isDigit = true) (hhead : cs.head? ≠ some '0') :
    isInteger cs = true := by
  simp only [isInteger, isDigits, Bool.and_eq_true, List.all_eq_true, Bool.or_eq_true]
  exact ⟨⟨by simp [hne], hdigits⟩, Or.inr (by simpa using hhead)⟩

/-- Digits of a positive number, cut anywhere behind the first, have no leading zero. -/
theorem isInteger_of_take {m : Nat} (hm : 0 < m) {k : Nat} (hk : 0 < k) :
    isInteger ((Nat.toDigits 10 m).take k) = true := by
  have hne : Nat.toDigits 10 m ≠ [] := Nat.toDigits_ne_nil
  have hhead : ((Nat.toDigits 10 m).take k).head? ≠ some '0' := by
    rw [List.head?_take, if_neg (by omega)]
    exact head?_toDigits hm
  have hdigits : ∀ c ∈ (Nat.toDigits 10 m).take k, c.isDigit = true :=
    fun c hc => digit_of_mem (List.mem_of_mem_take hc)
  have htake : (Nat.toDigits 10 m).take k ≠ [] := by
    intro h
    cases List.take_eq_nil_iff.mp h with
    | inl h => omega
    | inr h => exact hne h
  exact isInteger_of_digits htake hdigits hhead

/-- A printed number in parts. -/
theorem decimal_eq_layout {m : Nat} {e : Int} (h : m = 0 → e = 0) :
    ∃ int frac exponent, decimal m e = layout int frac exponent ∧ isInteger int = true ∧
      (∀ c ∈ frac, c.isDigit = true) ∧
      ∃ j : Nat, Nat.ofDigitChars 10 (int ++ frac) 0 = m * 10 ^ j ∧
        exponent.getD 0 - frac.length + j = e := by
  by_cases hzero : m = 0
  · obtain rfl := h hzero
    subst hzero
    exact ⟨['0'], [], none, rfl, rfl, by simp, 0, rfl, rfl⟩
  have hm : 0 < m := Nat.pos_of_ne_zero hzero
  have hvalue : Nat.ofDigitChars 10 (Nat.toDigits 10 m) 0 = m := Nat.ofDigitChars_ten_toDigits
  have hd : ∀ c ∈ Nat.toDigits 10 m, c.isDigit = true := fun c hc => digit_of_mem hc
  have hpos : 0 < (Nat.toDigits 10 m).length := Nat.length_toDigits_pos
  have htake : ∀ k, 0 < k → isInteger ((Nat.toDigits 10 m).take k) = true :=
    fun k hk => isInteger_of_take hm hk
  have hhead := head?_toDigits hm
  simp only [decimal]
  generalize Nat.toDigits 10 m = digits at hvalue hd hpos htake hhead
  have hall : isInteger digits = true := by
    have := htake digits.length hpos
    rwa [List.take_length] at this
  split
  · -- an integer, padded with zeros
    rename_i hcase
    refine ⟨digits ++ List.replicate e.toNat '0', [], none, by simp [layout], ?_, by simp,
      e.toNat, ?_, ?_⟩
    · have hne : digits ≠ [] := List.ne_nil_of_length_pos hpos
      have hdigits : ∀ c ∈ digits ++ List.replicate e.toNat '0', c.isDigit = true := by
        intro c hc
        cases List.mem_append.mp hc with
        | inl hc => exact hd c hc
        | inr hc =>
          rw [(List.mem_replicate.mp hc).2]
          rfl
      have hnozero : (digits ++ List.replicate e.toNat '0').head? ≠ some '0' := by
        rw [List.head?_append_of_ne_nil _ hne]
        exact hhead
      exact isInteger_of_digits (by simp [hne]) hdigits hnozero
    · rw [List.append_nil, Nat.ofDigitChars_append, hvalue, Nat.ofDigitChars_replicate_zero,
        Nat.mul_comm]
    · simp only [Option.getD_none, List.length_nil]
      omega
  · split
    · -- the point falls between two digits
      rename_i hcase
      have hlen : (digits.drop (digits.length + e).toNat).length =
          digits.length - (digits.length + e).toNat := List.length_drop
      have hfrac : digits.drop (digits.length + e).toNat ≠ [] := by
        apply List.ne_nil_of_length_pos
        omega
      refine ⟨digits.take (digits.length + e).toNat, digits.drop (digits.length + e).toNat, none,
        ?_, htake _ (by omega), fun c hc => hd c (List.mem_of_mem_drop hc), 0, ?_, ?_⟩
      · simp only [layout, if_neg hfrac, List.append_nil]
      · rw [List.take_append_drop, hvalue, Nat.pow_zero, Nat.mul_one]
      · simp only [Option.getD_none, hlen]
        omega
    · split
      · -- zeros after the point
        rename_i hcase
        have hzeros : ∀ c ∈ List.replicate (-(digits.length + e)).toNat '0' ++ digits,
            c.isDigit = true := by
          intro c hc
          cases List.mem_append.mp hc with
          | inl hc =>
            rw [(List.mem_replicate.mp hc).2]
            rfl
          | inr hc => exact hd c hc
        have hne : List.replicate (-(digits.length + e)).toNat '0' ++ digits ≠ [] := by
          apply List.ne_nil_of_length_pos
          rw [List.length_append]
          omega
        refine ⟨['0'], List.replicate (-(digits.length + e)).toNat '0' ++ digits, none, ?_, rfl,
          hzeros, 0, ?_, ?_⟩
        · simp only [layout, if_neg hne, List.append_nil]
          rfl
        · rw [List.singleton_append, Nat.ofDigitChars_cons, Nat.ofDigitChars_append,
            Nat.ofDigitChars_replicate_zero]
          simp [hvalue]
        · simp only [Option.getD_none, List.length_append, List.length_replicate]
          omega
      · -- exponent notation
        have hlen : (digits.drop 1).length = digits.length - 1 := List.length_drop
        refine ⟨digits.take 1, digits.drop 1, some (digits.length + e - 1), ?_, htake 1 (by omega),
          fun c hc => hd c (List.mem_of_mem_drop hc), 0, ?_, ?_⟩
        · have hiff : digits.length = 1 ↔ digits.drop 1 = [] := by
            rw [← List.length_eq_zero_iff]
            omega
          simp only [layout, hiff]
        · rw [List.take_append_drop, hvalue, Nat.pow_zero, Nat.mul_one]
        · simp only [Option.getD_some, hlen]
          omega

/-- A printed number contains no capital letter. -/
theorem map_lower_of_isNumChar {cs : List Char} (h : ∀ c ∈ cs, isNumChar c = true) :
    (cs.map fun c => if c = 'E' then 'e' else c) = cs := by
  have hid : ∀ c ∈ cs, (if c = 'E' then 'e' else c) = c := by
    intro c hc
    refine if_neg ?_
    intro heq
    have hnum := h c hc
    rw [heq] at hnum
    cases hnum
  rw [List.map_congr_left hid, List.map_id']

/-- A printed number is read as the double next to it. -/
theorem readNumber_toChars (n : JsNumber) : readNumber n.toChars = some n.toDouble := by
  have hzero : n.mantissa.natAbs = 0 → n.exponent = 0 := by
    intro hm
    have := n.canonical
    omega
  obtain ⟨int, frac, exponent, hdec, hint, hfrac, j, hvalue, hexp⟩ := decimal_eq_layout hzero
  have hread : readUnsigned (decimal n.mantissa.natAbs n.exponent) = some _ :=
    hdec ▸ readUnsigned_layout hint hfrac
  have hlower := map_lower_of_isNumChar (decimal_isNumChar n.mantissa.natAbs n.exponent)
  have hof := ofDecimal_mul_pow n j hvalue hexp
  obtain ⟨c, cs, hcons, hdigit⟩ := decimal_cons n.mantissa.natAbs n.exponent
  unfold readNumber toChars
  by_cases hneg : n.mantissa < 0
  · have hhead : ('-' :: decimal n.mantissa.natAbs n.exponent).head? == some '-' := rfl
    simp only [if_pos hneg, hhead, if_true, List.tail_cons, hlower, hread, Option.map_some]
    rw [decide_eq_true hneg] at hof
    rw [hof]
  · have hhead : ((decimal n.mantissa.natAbs n.exponent).head? == some '-') = false := by
      rw [hcons]
      have hne : c ≠ '-' := by
        intro heq
        rw [heq] at hdigit
        cases hdigit
      simpa using hne
    simp only [if_neg hneg, hhead, Bool.false_eq_true, if_false, hlower, hread, Option.map_some]
    rw [decide_eq_false hneg] at hof
    rw [hof]

end JsNumber

/-! ## Strings -/

namespace Json

/-- The value of a hexadecimal digit. -/
def hexValue? (c : Char) : Option Nat :=
  if c.isDigit then some (c.toNat - '0'.toNat)
  else if 'a' ≤ c ∧ c ≤ 'f' then some (c.toNat - 'a'.toNat + 10)
  else if 'A' ≤ c ∧ c ≤ 'F' then some (c.toNat - 'A'.toNat + 10)
  else none

/-- The code unit behind `\u`. -/
def codeUnit? : List Char → Option (Nat × List Char)
  | a :: b :: c :: d :: cs =>
    match hexValue? a, hexValue? b, hexValue? c, hexValue? d with
    | some a, some b, some c, some d => some (((a * 16 + b) * 16 + c) * 16 + d, cs)
    | _, _, _, _ => none
  | _ => none

/-- A character escaped by its code unit, or by the two of a surrogate pair. -/
def escaped? (cs : List Char) : Option (Char × List Char) :=
  match codeUnit? cs with
  | none => none
  | some (unit, cs) =>
    if 0xD800 ≤ unit ∧ unit < 0xDC00 then
      match cs with
      | '\\' :: 'u' :: cs' =>
        match codeUnit? cs' with
        | none => none
        | some (low, cs') =>
          if 0xDC00 ≤ low ∧ low < 0xE000 then
            some (Char.ofNat (0x10000 + (unit - 0xD800) * 0x400 + (low - 0xDC00)), cs')
          else some ('\uFFFD', cs)
      | _ => some ('\uFFFD', cs)
    else if 0xDC00 ≤ unit ∧ unit < 0xE000 then some ('\uFFFD', cs)
    else some (Char.ofNat unit, cs)

/-- One character of a string literal. -/
def parseChar : List Char → Option (Char × List Char)
  | '\\' :: c :: cs =>
    match c with
    | '"' => some ('"', cs)
    | '\\' => some ('\\', cs)
    | '/' => some ('/', cs)
    | 'b' => some ('\x08', cs)
    | 'f' => some ('\x0c', cs)
    | 'n' => some ('\n', cs)
    | 'r' => some ('\r', cs)
    | 't' => some ('\t', cs)
    | 'u' => escaped? cs
    | _ => none
  | c :: cs => if c = '\\' ∨ c = '"' ∨ c.toNat < 32 then none else some (c, cs)
  | [] => none

/-- The characters of a string literal, up to its closing quote. -/
def parseChars : (fuel : Nat) → List Char → Option (List Char × List Char)
  | 0, _ => none
  | fuel + 1, cs =>
    if cs.head? = some '"' then some ([], cs.tail)
    else
      match parseChar cs with
      | none => none
      | some (c, cs) =>
        match parseChars fuel cs with
        | none => none
        | some (rest, cs) => some (c :: rest, cs)

/-- A string literal. -/
def parseString : List Char → Option (String × List Char)
  | '"' :: cs => (parseChars (cs.length + 1) cs).map fun r => (String.ofList r.1, r.2)
  | _ => none

private theorem parseChar_control (n : Nat) (hn : n < 32) (cs : List Char) :
    parseChar (escapeChar (Char.ofNat n) ++ cs) = some (Char.ofNat n, cs) := by
  iterate 32
    obtain _ | n := n
    · rfl
  omega

/-- A printed character is read back. -/
theorem parseChar_escapeChar (c : Char) (cs : List Char) :
    parseChar (escapeChar c ++ cs) = some (c, cs) := by
  by_cases hc : c.toNat < 32
  · have h := parseChar_control c.toNat hc cs
    rwa [Char.ofNat_toNat] at h
  · by_cases hq : c = '"'
    · subst hq
      rfl
    · by_cases hb : c = '\\'
      · subst hb
        rfl
      · rw [escapeChar_plain hq hb hc, List.singleton_append]
        unfold parseChar
        split
        · rename_i heq
          exact absurd (List.head_eq_of_cons_eq heq) hb
        · rename_i heq
          obtain ⟨rfl, rfl⟩ := List.cons.inj heq
          exact if_neg fun h => h.elim hb fun h => h.elim hq hc
        · rename_i heq
          cases heq

/-- Printed characters are read back. -/
theorem parseChars_flatMap {fuel : Nat} (s rest : List Char) (hfuel : s.length < fuel) :
    parseChars fuel (s.flatMap escapeChar ++ '"' :: rest) = some (s, rest) := by
  induction s generalizing fuel with
  | nil =>
    obtain ⟨fuel, rfl⟩ : ∃ f, fuel = f + 1 := ⟨fuel - 1, by simp at hfuel; omega⟩
    rfl
  | cons c s ih =>
    obtain ⟨fuel, rfl⟩ : ∃ f, fuel = f + 1 := ⟨fuel - 1, by simp at hfuel; omega⟩
    obtain ⟨d, ds, hd, hne⟩ := escapeChar_cons c
    have hhead : (escapeChar c ++ (s.flatMap escapeChar ++ '"' :: rest)).head? ≠ some '"' := by
      rw [hd]
      simpa using hne
    have hrest := @ih fuel (by simp at hfuel; omega)
    rw [List.flatMap_cons, List.append_assoc, parseChars, if_neg hhead]
    simp only [parseChar_escapeChar, hrest]

/-- A printed string is read back. -/
theorem parseString_quote (s : String) (rest : List Char) :
    parseString (quote s ++ rest) = some (s, rest) := by
  have hlen : ∀ cs : List Char, cs.length ≤ (cs.flatMap escapeChar).length := by
    intro cs
    induction cs with
    | nil => exact Nat.le_refl 0
    | cons c cs ih =>
      obtain ⟨d, ds, hd, _⟩ := escapeChar_cons c
      simp only [List.flatMap_cons, List.length_append, List.length_cons, hd]
      omega
  have hchars := @parseChars_flatMap
    ((s.toList.flatMap escapeChar ++ '"' :: rest).length + 1) s.toList rest (by
      have := hlen s.toList
      rw [List.length_append]
      omega)
  rw [quote, List.cons_append, List.append_assoc]
  show (parseChars _ _).map _ = _
  rw [List.singleton_append, hchars, Option.map_some, String.ofList_toList]

/-! ## Values -/

/-- White space between tokens. -/
def skipSpace (cs : List Char) : List Char :=
  cs.dropWhile fun c => c == ' ' || c == '\t' || c == '\n' || c == '\r'

/-- An object with the members read: of two with one key the later one counts. -/
def ofMembers (members : List (String × Json)) : Json :=
  fromEntries (Dict.ofList members).entries

mutual

/-- A value, with no white space before it. -/
def parseValue : (fuel : Nat) → List Char → Option (Json × List Char)
  | 0, _ => none
  | fuel + 1, cs =>
    match cs with
    | 'n' :: 'u' :: 'l' :: 'l' :: cs => some (null, cs)
    | 't' :: 'r' :: 'u' :: 'e' :: cs => some (bool true, cs)
    | 'f' :: 'a' :: 'l' :: 's' :: 'e' :: cs => some (bool false, cs)
    | '"' :: _ => (parseString cs).map fun r => (str r.1, r.2)
    | '[' :: cs =>
      match skipSpace cs with
      | ']' :: cs => some (arr [], cs)
      | cs =>
        match parseValue fuel cs with
        | none => none
        | some (item, cs) => (parseItems fuel (skipSpace cs)).map fun r => (arr (item :: r.1), r.2)
    | '\x7b' :: cs =>
      match skipSpace cs with
      | '\x7d' :: cs => some (ofMembers [], cs)
      | cs =>
        match parseMember fuel cs with
        | none => none
        | some (member, cs) =>
          (parseMembers fuel (skipSpace cs)).map fun r => (ofMembers (member :: r.1), r.2)
    | cs =>
      let number := cs.takeWhile fun c => JsNumber.isNumChar c || c == 'E'
      (JsNumber.readNumber number).map fun n =>
        (num n, cs.dropWhile fun c => JsNumber.isNumChar c || c == 'E')

/-- What follows the first item of an array. -/
def parseItems : (fuel : Nat) → List Char → Option (List Json × List Char)
  | 0, _ => none
  | fuel + 1, cs =>
    match cs with
    | ']' :: cs => some ([], cs)
    | ',' :: cs =>
      match parseValue fuel (skipSpace cs) with
      | none => none
      | some (item, cs) => (parseItems fuel (skipSpace cs)).map fun r => (item :: r.1, r.2)
    | _ => none

/-- A key with its value, with no white space before it. -/
def parseMember : (fuel : Nat) → List Char → Option ((String × Json) × List Char)
  | 0, _ => none
  | fuel + 1, cs =>
    match parseString cs with
    | none => none
    | some (key, cs) =>
      match skipSpace cs with
      | ':' :: cs => (parseValue fuel (skipSpace cs)).map fun r => ((key, r.1), r.2)
      | _ => none

/-- What follows the first member of an object. -/
def parseMembers : (fuel : Nat) → List Char → Option (List (String × Json) × List Char)
  | 0, _ => none
  | fuel + 1, cs =>
    match cs with
    | '\x7d' :: cs => some ([], cs)
    | ',' :: cs =>
      match parseMember fuel (skipSpace cs) with
      | none => none
      | some (member, cs) => (parseMembers fuel (skipSpace cs)).map fun r => (member :: r.1, r.2)
    | _ => none

end

/-- `JSON.parse`. Each level of the parser consumes a character, so the fuel is enough. -/
def parse (text : List Char) : Option Json :=
  match parseValue (2 * text.length + 1) (skipSpace text) with
  | some (value, rest) => if skipSpace rest = [] then some value else none
  | none => none

/-! ## Reading what was printed -/

mutual

/-- A value as a program holds it: its numbers are finite doubles, and its objects list different
    keys in property order. -/
def Held : Json → Prop
  | num n => n.IsDouble
  | arr items => ItemsHeld items
  | obj members =>
    (members.map Prod.fst).Nodup ∧ fromEntries members = obj members ∧ MembersHeld members
  | _ => True

def ItemsHeld : List Json → Prop
  | [] => True
  | item :: items => Held item ∧ ItemsHeld items

def MembersHeld : List (String × Json) → Prop
  | [] => True
  | (_, value) :: members => Held value ∧ MembersHeld members

end

mutual

/-- What a printed value is read as. -/
def reread : Json → Json
  | num n => num n.toDouble
  | arr items => arr (rereadItems items)
  | obj members => ofMembers (rereadMembers members)
  | a => a

def rereadItems : List Json → List Json
  | [] => []
  | item :: items => reread item :: rereadItems items

def rereadMembers : List (String × Json) → List (String × Json)
  | [] => []
  | (key, value) :: members => (key, reread value) :: rereadMembers members

end

variable {members : List (String × Json)}

/-- Members under keys that are not array indices keep their order. -/
theorem fromEntries_of_plain (h : ∀ m ∈ members, arrayIndex? m.1 = none) :
    fromEntries members = obj members := by
  have hnone : (members.filter fun m => (arrayIndex? m.1).isSome) = [] := by
    rw [List.filter_eq_nil_iff]
    intro m hm
    simp [h m hm]
  have hall : (members.filter fun m => (arrayIndex? m.1).isNone) = members := by
    rw [List.filter_eq_self]
    intro m hm
    simp [h m hm]
  simp only [fromEntries, hnone, hall, List.insertionSort_nil, List.nil_append]

/-- New values keep members in property order. -/
theorem fromEntries_map (h : fromEntries members = obj members) (f : String × Json → Json) :
    fromEntries (members.map fun m => (m.1, f m)) = obj (members.map fun m => (m.1, f m)) := by
  have hmap := congrArg (List.map fun m : String × Json => (m.1, f m)) (Json.obj.inj h)
  rw [List.map_append, List.map_insertionSort _ (fun e e' : String × Json =>
    (arrayIndex? e.1).getD 0 ≤ (arrayIndex? e'.1).getD 0) _ _ fun _ _ _ _ => Iff.rfl] at hmap
  rw [fromEntries, List.filter_map, List.filter_map]
  exact congrArg obj hmap

/-- A key with a character that is no digit is no array index. -/
theorem arrayIndex?_eq_none {k : String} (h : k.toList.any (fun c => !c.isDigit) = true) :
    arrayIndex? k = none := by
  unfold arrayIndex?
  split
  · rename_i n _
    refine if_neg ?_
    rintro ⟨hk, _⟩
    obtain ⟨c, hc, hdigit⟩ := List.any_eq_true.mp h
    rw [← hk, Nat.toString_eq_ofList_toDigits, String.toList_ofList] at hc
    simp [JsNumber.digit_of_mem hc] at hdigit
  · rfl

/-- What may follow a value inside a printed one, or at its end. -/
def Ends (rest : List Char) : Prop := ∀ c cs, rest = c :: cs → c = ',' ∨ c = ']' ∨ c = '\x7d'

theorem ends_items (items : List Json) (rest : List Char) : Ends (itemsChars items ++ rest) := by
  intro c cs h
  cases items with
  | nil =>
    rw [itemsChars, List.singleton_append] at h
    exact Or.inr (Or.inl (List.head_eq_of_cons_eq h).symm)
  | cons item items =>
    rw [itemsChars, List.cons_append] at h
    exact Or.inl (List.head_eq_of_cons_eq h).symm

theorem ends_members (members : List (String × Json)) (rest : List Char) :
    Ends (membersChars members ++ rest) := by
  intro c cs h
  cases members with
  | nil =>
    rw [membersChars, List.singleton_append] at h
    exact Or.inr (Or.inr (List.head_eq_of_cons_eq h).symm)
  | cons member members =>
    obtain ⟨k, a⟩ := member
    rw [membersChars, List.cons_append] at h
    exact Or.inl (List.head_eq_of_cons_eq h).symm

/-- Whether a character is neither white space nor a closing bracket. -/
def opens (c : Char) : Bool :=
  !(c == ' ' || c == '\t' || c == '\n' || c == '\r' || c == ']' || c == '\x7d')

/-- A printed value opens with the character of a value. -/
theorem chars_opens (a : Json) : ∃ c cs, chars a = c :: cs ∧ opens c = true := by
  cases a with
  | null => exact ⟨_, _, by rw [chars], rfl⟩
  | bool b => cases b <;> exact ⟨_, _, by rw [chars], rfl⟩
  | num n =>
    obtain ⟨c, cs, hn, hc⟩ := n.toChars_cons
    refine ⟨c, cs, by rw [chars, hn], ?_⟩
    cases hopens : opens c with
    | true => rfl
    | false =>
      simp only [opens, Bool.not_eq_false', Bool.or_eq_true, beq_iff_eq] at hopens
      obtain ((((rfl | rfl) | rfl) | rfl) | rfl) | rfl := hopens <;> cases hc
  | str s => exact ⟨_, _, by rw [chars, quote], rfl⟩
  | arr items => cases items <;> exact ⟨_, _, by rw [chars], rfl⟩
  | obj members =>
    cases members with
    | nil | cons _ _ => exact ⟨_, _, by rw [chars], rfl⟩

theorem skipSpace_of_opens {c : Char} (h : opens c = true) (cs : List Char) :
    skipSpace (c :: cs) = c :: cs := by
  rw [skipSpace, List.dropWhile_cons_of_neg]
  simp only [opens, Bool.not_eq_true', Bool.or_eq_false_iff] at h
  simp [h.1.1.1.1.1, h.1.1.1.1.2, h.1.1.1.2, h.1.1.2]

theorem skipSpace_chars (a : Json) (rest : List Char) :
    skipSpace (chars a ++ rest) = chars a ++ rest := by
  obtain ⟨c, cs, ha, hc⟩ := chars_opens a
  rw [ha, List.cons_append]
  exact skipSpace_of_opens hc _

variable {rest : List Char}

/-- There is no white space before what may follow a value. -/
theorem skipSpace_of_ends (h : Ends rest) : skipSpace rest = rest := by
  cases rest with
  | nil => rfl
  | cons c cs =>
    obtain rfl | rfl | rfl := h c cs rfl <;> rfl

/-- A printed number is read back where a value is expected. -/
theorem parseValue_num (n : JsNumber) {fuel : Nat} (hrest : Ends rest) :
    parseValue (fuel + 1) (n.toChars ++ rest) = some (num n.toDouble, rest) := by
  obtain ⟨c, cs, hcons, hc⟩ := n.toChars_cons
  have hcut : (n.toChars ++ rest).takeWhile (fun c => JsNumber.isNumChar c || c == 'E') =
        n.toChars ∧
      (n.toChars ++ rest).dropWhile (fun c => JsNumber.isNumChar c || c == 'E') = rest := by
    have hall : ∀ c ∈ n.toChars, (JsNumber.isNumChar c || c == 'E') = true := by
      intro c hc
      simp [n.toChars_isNumChar c hc]
    cases rest with
    | nil =>
      rw [List.append_nil]
      exact JsNumber.takeWhile_self hall
    | cons d ds =>
      refine JsNumber.takeWhile_all hall d ds ?_
      obtain rfl | rfl | rfl := hrest d ds rfl <;> rfl
  have hread := JsNumber.readNumber_toChars n
  -- no other value starts with a character of a number
  have hne : ∀ d ds, JsNumber.isNumChar d = false → n.toChars ++ rest ≠ d :: ds := by
    intro d ds hd heq
    rw [hcons, List.cons_append] at heq
    rw [List.head_eq_of_cons_eq heq, hd] at hc
    cases hc
  unfold parseValue
  split
  iterate 6
    · rename_i heq
      exact absurd heq (hne _ _ rfl)
  · simp only [hcut.1, hcut.2, hread, Option.map_some]

/-- A printed member is read back when its value is. -/
theorem parseMember_of_parseValue (key : String) {value value' : Json} {fuel : Nat}
    (hread : parseValue fuel (chars value ++ rest) = some (value', rest)) :
    parseMember (fuel + 1) (quote key ++ ':' :: (chars value ++ rest)) =
      some ((key, value'), rest) := by
  rw [parseMember, parseString_quote]
  simp only [skipSpace_of_opens (c := ':') rfl, skipSpace_chars, hread, Option.map_some]

mutual

/-- A printed value is read back, with what follows it. -/
theorem parseValue_chars (a : Json) (fuel : Nat) (rest : List Char)
    (hfuel : 2 * (chars a).length ≤ fuel) (hrest : Ends rest) :
    parseValue fuel (chars a ++ rest) = some (reread a, rest) := by
  obtain ⟨f, hf⟩ : ∃ f, fuel = f + 1 := by
    obtain ⟨c, cs, hc, _⟩ := chars_opens a
    rw [hc, List.length_cons] at hfuel
    exact ⟨fuel - 1, by omega⟩
  rw [hf]
  match a with
  | null | bool true | bool false => rfl
  | num n =>
    rw [chars]
    exact parseValue_num n hrest
  | str s =>
    rw [chars]
    show (parseString (quote s ++ rest)).map _ = _
    rw [parseString_quote]
    rfl
  | arr [] => rfl
  | arr (item :: items) =>
    rw [chars, List.length_cons, List.length_append] at hfuel
    have hitem := parseValue_chars item f (itemsChars items ++ rest) (by omega)
      (ends_items items rest)
    have hitems := parseItems_chars items f rest (by omega)
    obtain ⟨c, cs, hc, hopens⟩ := chars_opens item
    have hspace := skipSpace_chars item (itemsChars items ++ rest)
    rw [chars, List.cons_append, List.append_assoc, parseValue]
    simp only [hspace]
    split
    · rename_i heq
      rw [hc, List.cons_append] at heq
      rw [List.head_eq_of_cons_eq heq] at hopens
      cases hopens
    · simp only [hitem, skipSpace_of_ends (ends_items items rest), hitems, Option.map_some,
        reread, rereadItems]
  | obj [] => rfl
  | obj ((key, value) :: members) =>
    rw [chars, List.length_cons, List.length_append, List.length_cons, List.length_append] at hfuel
    obtain ⟨f', hf'⟩ : ∃ f', f = f' + 1 := ⟨f - 1, by omega⟩
    have hmember := parseMember_of_parseValue key
      (parseValue_chars value f' (membersChars members ++ rest) (by omega)
        (ends_members members rest))
    rw [← hf'] at hmember
    have hmembers := parseMembers_chars members f rest (by omega)
    have hspace : skipSpace (quote key ++ ':' :: (chars value ++ (membersChars members ++ rest))) =
        quote key ++ ':' :: (chars value ++ (membersChars members ++ rest)) :=
      skipSpace_of_opens rfl _
    rw [chars, List.cons_append, List.append_assoc, List.cons_append, List.append_assoc, parseValue]
    simp only [hspace]
    split
    · rename_i heq
      exact absurd (List.head_eq_of_cons_eq heq) (by decide)
    · simp only [hmember, skipSpace_of_ends (ends_members members rest), hmembers, Option.map_some,
        reread, rereadMembers]
termination_by sizeOf a

theorem parseItems_chars (items : List Json) (fuel : Nat) (rest : List Char)
    (hfuel : 2 * (itemsChars items).length ≤ fuel) :
    parseItems fuel (itemsChars items ++ rest) = some (rereadItems items, rest) := by
  obtain ⟨f, hf⟩ : ∃ f, fuel = f + 1 := by
    cases items with
    | nil | cons _ _ => exact ⟨fuel - 1, by simp [itemsChars] at hfuel; omega⟩
  rw [hf]
  match items with
  | [] => rfl
  | item :: items =>
    rw [itemsChars, List.length_cons, List.length_append] at hfuel
    have hitem := parseValue_chars item f (itemsChars items ++ rest) (by omega)
      (ends_items items rest)
    have hrest := parseItems_chars items f rest (by omega)
    rw [itemsChars, List.cons_append, List.append_assoc, parseItems]
    simp only [skipSpace_chars, hitem, skipSpace_of_ends (ends_items items rest), hrest,
      Option.map_some, rereadItems]
termination_by sizeOf items

theorem parseMembers_chars (members : List (String × Json)) (fuel : Nat) (rest : List Char)
    (hfuel : 2 * (membersChars members).length ≤ fuel) :
    parseMembers fuel (membersChars members ++ rest) = some (rereadMembers members, rest) := by
  obtain ⟨f, hf⟩ : ∃ f, fuel = f + 1 := by
    cases members with
    | nil => exact ⟨fuel - 1, by simp [membersChars] at hfuel; omega⟩
    | cons member members =>
      obtain ⟨key, value⟩ := member
      exact ⟨fuel - 1, by simp [membersChars] at hfuel; omega⟩
  rw [hf]
  match members with
  | [] => rfl
  | (key, value) :: members =>
    rw [membersChars, List.length_cons, List.length_append, List.length_cons,
      List.length_append] at hfuel
    obtain ⟨f', hf'⟩ : ∃ f', f = f' + 1 := ⟨f - 1, by omega⟩
    have hmember := parseMember_of_parseValue key
      (parseValue_chars value f' (membersChars members ++ rest) (by omega)
        (ends_members members rest))
    rw [← hf'] at hmember
    have hrest := parseMembers_chars members f rest (by omega)
    have hspace : skipSpace (quote key ++ ':' :: (chars value ++ (membersChars members ++ rest))) =
        quote key ++ ':' :: (chars value ++ (membersChars members ++ rest)) :=
      skipSpace_of_opens rfl _
    rw [membersChars, List.cons_append, List.append_assoc, List.cons_append, List.append_assoc,
      parseMembers]
    simp only [hspace, hmember, skipSpace_of_ends (ends_members members rest), hrest,
      Option.map_some, rereadMembers]
termination_by sizeOf members

end

/-- Whatever `JSON.stringify` prints can be read. -/
theorem parse_stringify_eq_reread (a : Json) :
    parse (stringify a).toList = some (reread a) := by
  have hspace := skipSpace_chars a []
  have hread := parseValue_chars a (2 * (chars a).length + 1) [] (by omega) (by simp [Ends])
  rw [List.append_nil] at hspace hread
  rw [stringify, String.toList_ofList, parse, hspace, hread]
  rfl

/-- An object that a program holds is what its members are read as. -/
theorem ofMembers_eq (h : (obj members).Held) :
    ofMembers members = obj members := by
  have hentries : (Dict.ofList members).entries = members :=
    Dict.entries_setAll Dict.empty members h.1
  rw [ofMembers, hentries]
  exact h.2.1

mutual

/-- A value that a program holds is read as it is. -/
theorem reread_of_held (a : Json) (h : a.Held) : reread a = a := by
  match a, h with
  | null, _ | bool _, _ | str _, _ => rfl
  | num n, h => exact congrArg num h.1
  | arr items, h => exact congrArg arr (rereadItems_of_held items h)
  | obj members, h =>
    rw [reread, rereadMembers_of_held members h.2.2]
    exact ofMembers_eq h

theorem rereadItems_of_held (items : List Json) (h : ItemsHeld items) :
    rereadItems items = items := by
  match items, h with
  | [], _ => rfl
  | item :: items, h => rw [rereadItems, reread_of_held item h.1, rereadItems_of_held items h.2]

theorem rereadMembers_of_held (members : List (String × Json)) (h : MembersHeld members) :
    rereadMembers members = members := by
  match members, h with
  | [], _ => rfl
  | (_, value) :: members, h =>
    rw [rereadMembers, reread_of_held value h.1, rereadMembers_of_held members h.2]

end

/-- `JSON.parse` reads what `JSON.stringify` prints. -/
theorem parse_stringify {a : Json} (ha : a.Held) : parse (stringify a).toList = some a := by
  rw [parse_stringify_eq_reread, reread_of_held a ha]

end Json
