import Mathlib.Data.List.Basic

/-!
# Base64

The encoding of bytes as text with padding, and the decoding of such a text.

Key results:
- `decode_encode`: decoding what has been encoded
- `atob_encode`: reading it as `atob` does, which forgives blanks and missing pads
- `encode_eq_append`: an encoded text is made of digits, with at most two pads at its end
-/

namespace Base64

/-- The digit of six bits. -/
def digit (n : Nat) : Char :=
  if n < 26 then Char.ofNat (65 + n)
  else if n < 52 then Char.ofNat (71 + n)
  else if n < 62 then Char.ofNat (n - 4)
  else if n = 62 then '+'
  else '/'

/-- The six bits of a digit. -/
def value (c : Char) : Nat :=
  if c.isUpper then c.toNat - 65
  else if c.isLower then c.toNat - 71
  else if c.isDigit then c.toNat + 4
  else if c = '+' then 62
  else 63

/-- Whether a character is a digit. -/
def isDigit (c : Char) : Bool := c.isAlphanum || c == '+' || c == '/'

/-- The text of some bytes. -/
def encode : List UInt8 → List Char
  | [] => []
  | [x] => [digit (x.toNat / 4), digit (x.toNat % 4 * 16), '=', '=']
  | [x, y] =>
    [digit (x.toNat / 4), digit (x.toNat % 4 * 16 + y.toNat / 16), digit (y.toNat % 16 * 4), '=']
  | x :: y :: z :: bytes =>
    digit (x.toNat / 4) :: digit (x.toNat % 4 * 16 + y.toNat / 16) ::
      digit (y.toNat % 16 * 4 + z.toNat / 64) :: digit (z.toNat % 64) :: encode bytes

/-- The bytes of four characters, the last two of which may be pads. -/
def decodeGroup (a b c d : Char) : List UInt8 :=
  if c = '=' then [.ofNat (value a * 4 + value b / 16)]
  else if d = '=' then
    [.ofNat (value a * 4 + value b / 16), .ofNat (value b % 16 * 16 + value c / 4)]
  else
    [.ofNat (value a * 4 + value b / 16), .ofNat (value b % 16 * 16 + value c / 4),
      .ofNat (value c % 4 * 64 + value d)]

/-- The bytes of a text whose length is a multiple of four. -/
def decode : List Char → List UInt8
  | a :: b :: c :: d :: text => decodeGroup a b c d ++ decode text
  | _ => []

/-! ## Digits -/

theorem value_digit : ∀ n < 64, value (digit n) = n := by decide

theorem isDigit_digit : ∀ n < 64, isDigit (digit n) = true := by decide

theorem digit_ne_pad {n : Nat} (h : n < 64) : digit n ≠ '=' := by
  intro heq
  have hdigit := isDigit_digit n h
  rw [heq] at hdigit
  exact absurd hdigit (by decide)

/-! ## The round trip -/

theorem decode_encode (bytes : List UInt8) : decode (encode bytes) = bytes := by
  fun_induction encode bytes with
  | case1 => rfl
  | case2 x =>
    have hx := x.toNat_lt
    rw [decode, decodeGroup, if_pos rfl, value_digit _ (by omega), value_digit _ (by omega)]
    have hfst : x.toNat / 4 * 4 + x.toNat % 4 * 16 / 16 = x.toNat := by omega
    rw [hfst, UInt8.ofNat_toNat]
    rfl
  | case3 x y =>
    have hx := x.toNat_lt
    have hy := y.toNat_lt
    rw [decode, decodeGroup, if_neg (digit_ne_pad (by omega)), if_pos rfl,
      value_digit _ (by omega), value_digit _ (by omega), value_digit _ (by omega)]
    have hfst : x.toNat / 4 * 4 + (x.toNat % 4 * 16 + y.toNat / 16) / 16 = x.toNat := by omega
    have hsnd : (x.toNat % 4 * 16 + y.toNat / 16) % 16 * 16 + y.toNat % 16 * 4 / 4 = y.toNat := by
      omega
    rw [hfst, hsnd, UInt8.ofNat_toNat, UInt8.ofNat_toNat]
    rfl
  | case4 x y z bytes ih =>
    have hx := x.toNat_lt
    have hy := y.toNat_lt
    have hz := z.toNat_lt
    rw [decode, decodeGroup, if_neg (digit_ne_pad (by omega)), if_neg (digit_ne_pad (by omega)),
      value_digit _ (by omega), value_digit _ (by omega), value_digit _ (by omega),
      value_digit _ (by omega), ih]
    have hfst : x.toNat / 4 * 4 + (x.toNat % 4 * 16 + y.toNat / 16) / 16 = x.toNat := by omega
    have hsnd : (x.toNat % 4 * 16 + y.toNat / 16) % 16 * 16 +
        (y.toNat % 16 * 4 + z.toNat / 64) / 4 = y.toNat := by omega
    have htrd : (y.toNat % 16 * 4 + z.toNat / 64) % 4 * 64 + z.toNat % 64 = z.toNat := by omega
    rw [hfst, hsnd, htrd, UInt8.ofNat_toNat, UInt8.ofNat_toNat, UInt8.ofNat_toNat]
    rfl

/-! ## The shape of an encoded text -/

theorem length_encode (bytes : List UInt8) : (encode bytes).length % 4 = 0 := by
  fun_induction encode bytes with
  | case1 => rfl
  | case2 x => simp
  | case3 x y => simp
  | case4 x y z bytes ih =>
    simp only [List.length_cons]
    omega

theorem encode_eq_nil {bytes : List UInt8} : encode bytes = [] ↔ bytes = [] := by
  fun_cases encode bytes <;> simp

theorem encode_eq_append (bytes : List UInt8) :
    ∃ digits n, encode bytes = digits ++ List.replicate n '=' ∧ n ≤ 2 ∧
      ∀ c ∈ digits, isDigit c = true := by
  fun_induction encode bytes with
  | case1 => exact ⟨[], 0, rfl, by omega, by simp⟩
  | case2 x =>
    have hx := x.toNat_lt
    refine ⟨[digit (x.toNat / 4), digit (x.toNat % 4 * 16)], 2, rfl, by omega, ?_⟩
    simp [isDigit_digit (x.toNat / 4) (by omega), isDigit_digit (x.toNat % 4 * 16) (by omega)]
  | case3 x y =>
    have hx := x.toNat_lt
    have hy := y.toNat_lt
    refine ⟨[digit (x.toNat / 4), digit (x.toNat % 4 * 16 + y.toNat / 16),
      digit (y.toNat % 16 * 4)], 1, rfl, by omega, ?_⟩
    simp [isDigit_digit (x.toNat / 4) (by omega),
      isDigit_digit (x.toNat % 4 * 16 + y.toNat / 16) (by omega),
      isDigit_digit (y.toNat % 16 * 4) (by omega)]
  | case4 x y z bytes ih =>
    have hx := x.toNat_lt
    have hy := y.toNat_lt
    have hz := z.toNat_lt
    obtain ⟨digits, n, heq, hn, hdigits⟩ := ih
    refine ⟨digit (x.toNat / 4) :: digit (x.toNat % 4 * 16 + y.toNat / 16) ::
      digit (y.toNat % 16 * 4 + z.toNat / 64) :: digit (z.toNat % 64) :: digits, n, ?_, hn, ?_⟩
    · rw [heq]
      rfl
    · simp only [List.mem_cons]
      rintro c (rfl | rfl | rfl | rfl | hc)
      iterate 4
        · exact isDigit_digit _ (by omega)
      · exact hdigits c hc

/-! ## Forgiving decoding -/

/-- ASCII whitespace. -/
def isBlank (c : Char) : Bool := c == '\t' || c == '\n' || c == '\x0C' || c == '\r' || c == ' '

/-- A text whose length is a multiple of four without the pads at its end, of which there are at
    most two. -/
def unpad (text : List Char) : List Char :=
  if text.length % 4 ≠ 0 then text
  else
    match text.reverse with
    | '=' :: '=' :: rest => rest.reverse
    | '=' :: rest => rest.reverse
    | _ => text

/-- `atob`, with its result as bytes; `none` when it throws. -/
def atob (text : List Char) : Option (List UInt8) :=
  let digits := unpad (text.filter fun c => !isBlank c)
  if digits.length % 4 = 1 ∨ digits.any (fun c => !isDigit c) = true then none
  else some (decode (digits ++ List.replicate ((4 - digits.length % 4) % 4) '='))

theorem not_isBlank_of_isDigit {c : Char} (h : isDigit c = true) : isBlank c = false := by
  rw [Bool.eq_false_iff]
  intro hblank
  simp only [isBlank, Bool.or_eq_true, beq_iff_eq] at hblank
  rcases hblank with (((rfl | rfl) | rfl) | rfl) | rfl <;> revert h <;> decide

theorem unpad_append {digits : List Char} {n : Nat} (hn : n ≤ 2)
    (hdigits : ∀ c ∈ digits, isDigit c = true)
    (hlength : (digits ++ List.replicate n '=').length % 4 = 0) :
    unpad (digits ++ List.replicate n '=') = digits := by
  rw [unpad, if_neg (not_not.mpr hlength), List.reverse_append, List.reverse_replicate]
  have hlast : ∀ rest, digits.reverse ≠ '=' :: rest := by
    intro rest hrest
    have hmem : '=' ∈ digits := by
      rw [← List.mem_reverse, hrest]
      exact List.mem_cons_self
    exact absurd (hdigits '=' hmem) (by decide)
  match n, hn with
  | 0, _ =>
    show (match digits.reverse with
      | '=' :: '=' :: rest => rest.reverse
      | '=' :: rest => rest.reverse
      | _ => digits ++ []) = digits
    split
    · next heq => exact absurd heq (hlast _)
    · next heq => exact absurd heq (hlast _)
    · rw [List.append_nil]
  | 1, _ =>
    show (match '=' :: digits.reverse with
      | '=' :: '=' :: rest => rest.reverse
      | '=' :: rest => rest.reverse
      | _ => digits ++ ['=']) = digits
    split
    · next heq => exact absurd (List.cons.inj heq).2 (hlast _)
    · next heq =>
      obtain rfl := (List.cons.inj heq).2
      rw [List.reverse_reverse]
    · next hnot => exact absurd rfl (hnot _)
  | 2, _ =>
    show digits.reverse.reverse = digits
    rw [List.reverse_reverse]

/-- What has been encoded is read back. -/
theorem atob_encode (bytes : List UInt8) : atob (encode bytes) = some bytes := by
  obtain ⟨digits, n, heq, hn, hdigits⟩ := encode_eq_append bytes
  have hlength := length_encode bytes
  rw [heq] at hlength
  have hkeep : (encode bytes).filter (fun c => !isBlank c) = encode bytes := by
    rw [List.filter_eq_self, heq]
    intro c hc
    rcases List.mem_append.mp hc with hdigit | hpad
    · rw [not_isBlank_of_isDigit (hdigits c hdigit)]
      rfl
    · rw [(List.mem_replicate.mp hpad).2]
      decide
  have hunpad := unpad_append hn hdigits hlength
  rw [List.length_append, List.length_replicate] at hlength
  have hpads : (4 - digits.length % 4) % 4 = n := by omega
  have hgood : ¬ (digits.length % 4 = 1 ∨ digits.any (fun c => !isDigit c) = true) := by
    rintro (hone | hany)
    · omega
    · obtain ⟨c, hc, hbad⟩ := List.any_eq_true.mp hany
      rw [hdigits c hc] at hbad
      cases hbad
  rw [atob, hkeep]
  simp only [heq, hunpad]
  rw [if_neg hgood, hpads, ← heq, decode_encode]

end Base64
