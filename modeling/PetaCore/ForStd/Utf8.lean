import Mathlib.Data.List.Basic

/-!
# UTF-8

Encoding of strings, and the streaming decoder of the WHATWG Encoding Standard. The decoder takes
one byte at a time, so that a stream may be cut anywhere; what cannot be decoded becomes U+FFFD,
one for each maximal part of a character.

Key results:
- `run_append`: decoding does not depend on how the bytes are cut
- `decode_encode`: decoding what has been encoded
-/

namespace Utf8

/-! ## Encoding -/

/-- The bytes of a character. -/
def encodeChar (c : Char) : List UInt8 :=
  let n := c.toNat
  if n < 0x80 then [.ofNat n]
  else if n < 0x800 then [.ofNat (0xC0 + n / 64), .ofNat (0x80 + n % 64)]
  else if n < 0x10000 then
    [.ofNat (0xE0 + n / 4096), .ofNat (0x80 + n / 64 % 64), .ofNat (0x80 + n % 64)]
  else
    [.ofNat (0xF0 + n / 262144), .ofNat (0x80 + n / 4096 % 64), .ofNat (0x80 + n / 64 % 64),
      .ofNat (0x80 + n % 64)]

/-- The bytes of a text. -/
def encode (cs : List Char) : List UInt8 := cs.flatMap encodeChar

theorem encode_eq_nil {cs : List Char} : encode cs = [] ↔ cs = [] := by
  cases cs with
  | nil => simp [encode]
  | cons c cs =>
    simp only [encode, List.flatMap_cons, List.append_eq_nil_iff, encodeChar]
    split
    · simp
    · split
      · simp
      · split <;> simp

/-! ## Decoding -/

/-- The replacement character. -/
def replacement : Char := '\uFFFD'

/-- What the decoder remembers between two bytes: nothing, or the bytes it still needs for a
    character, its code point so far, and the bounds of the next byte. -/
inductive State where
  | start
  | within (needed codePoint lower upper : Nat)
deriving DecidableEq

/-- The first byte of a character. -/
def first (b : Nat) : State × List Char :=
  if b < 0x80 then (.start, [Char.ofNat b])
  else if b < 0xC2 then (.start, [replacement])
  else if b < 0xE0 then (.within 1 (b - 0xC0) 0x80 0xBF, [])
  else if b < 0xF0 then
    (.within 2 (b - 0xE0) (if b = 0xE0 then 0xA0 else 0x80) (if b = 0xED then 0x9F else 0xBF), [])
  else if b < 0xF5 then
    (.within 3 (b - 0xF0) (if b = 0xF0 then 0x90 else 0x80) (if b = 0xF4 then 0x8F else 0xBF), [])
  else (.start, [replacement])

/-- One byte. A byte that does not continue a character is taken as a first one again. -/
def step : State → UInt8 → State × List Char
  | .start, b => first b.toNat
  | .within needed codePoint lower upper, b =>
    if lower ≤ b.toNat ∧ b.toNat ≤ upper then
      let codePoint := codePoint * 64 + (b.toNat - 0x80)
      if needed = 1 then (.start, [Char.ofNat codePoint])
      else (.within (needed - 1) codePoint 0x80 0xBF, [])
    else ((first b.toNat).1, replacement :: (first b.toNat).2)

/-- The bytes of a part of a stream. -/
def run : State → List UInt8 → State × List Char
  | s, [] => (s, [])
  | s, b :: bytes =>
    ((run (step s b).1 bytes).1, (step s b).2 ++ (run (step s b).1 bytes).2)

/-- The end of the stream, which may come within a character. -/
def finish : State → List Char
  | .start => []
  | .within .. => [replacement]

/-- The text of a whole stream. -/
def decode (bytes : List UInt8) : List Char :=
  (run .start bytes).2 ++ finish (run .start bytes).1

/-! ## Cutting a stream -/

theorem run_append (s : State) (xs ys : List UInt8) :
    run s (xs ++ ys) = ((run (run s xs).1 ys).1, (run s xs).2 ++ (run (run s xs).1 ys).2) := by
  induction xs generalizing s with
  | nil => rfl
  | cons b xs ih => simp [run, ih, List.append_assoc]

/-! ## The round trip -/

theorem toNat_ofNat_byte {n : Nat} (h : n < 256) : (UInt8.ofNat n).toNat = n := by
  rw [UInt8.toNat_ofNat']
  omega

/-- A byte that starts a character of several bytes. -/
theorem run_first {n : Nat} {s : State} (h : n < 256) (hfirst : first n = (s, []))
    (bytes : List UInt8) : run .start (.ofNat n :: bytes) = run s bytes := by
  simp only [run, step, toNat_ofNat_byte h, hfirst, List.nil_append]

/-- A byte that continues a character, when more are needed. -/
theorem run_within {needed codePoint lower upper m : Nat} (hm : m < 64)
    (hlower : lower ≤ 0x80 + m) (hupper : 0x80 + m ≤ upper) (bytes : List UInt8) :
    run (.within (needed + 2) codePoint lower upper) (.ofNat (0x80 + m) :: bytes) =
      run (.within (needed + 1) (codePoint * 64 + m) 0x80 0xBF) bytes := by
  have hb : (UInt8.ofNat (0x80 + m)).toNat = 0x80 + m := toNat_ofNat_byte (by omega)
  simp only [run, step, hb]
  rw [if_pos ⟨hlower, hupper⟩, if_neg (by omega), Nat.add_sub_cancel_left]
  rfl

/-- The last byte of a character. -/
theorem run_last {codePoint lower upper m : Nat} (hm : m < 64)
    (hlower : lower ≤ 0x80 + m) (hupper : 0x80 + m ≤ upper) :
    run (.within 1 codePoint lower upper) [.ofNat (0x80 + m)] =
      (.start, [Char.ofNat (codePoint * 64 + m)]) := by
  have hb : (UInt8.ofNat (0x80 + m)).toNat = 0x80 + m := toNat_ofNat_byte (by omega)
  simp only [run, step, hb]
  rw [if_pos ⟨hlower, hupper⟩, if_pos trivial, Nat.add_sub_cancel_left]
  rfl

theorem run_encodeChar (c : Char) : run .start (encodeChar c) = (.start, [c]) := by
  have hvalid : c.toNat < 0xD800 ∨ 0xDFFF < c.toNat ∧ c.toNat < 0x110000 := c.valid
  have hc : Char.ofNat c.toNat = c := Char.ofNat_toNat c
  generalize hn : c.toNat = n at hvalid hc
  simp only [encodeChar, hn]
  split
  · next h1 => simp [run, step, toNat_ofNat_byte (show n < 256 by omega), first, h1, hc]
  split
  · next h1 h2 =>
    have hfirst : first (0xC0 + n / 64) = (.within 1 (n / 64) 0x80 0xBF, []) := by
      rw [first, if_neg (by omega), if_neg (by omega), if_pos (by omega), Nat.add_sub_cancel_left]
    have hlast : n / 64 * 64 + n % 64 = n := by omega
    rw [run_first (by omega) hfirst, run_last (by omega) (by omega) (by omega), hlast, hc]
  split
  · next h1 h2 h3 =>
    have hfirst : first (0xE0 + n / 4096) = (.within 2 (n / 4096)
        (if 0xE0 + n / 4096 = 0xE0 then 0xA0 else 0x80)
        (if 0xE0 + n / 4096 = 0xED then 0x9F else 0xBF), []) := by
      rw [first, if_neg (by omega), if_neg (by omega), if_neg (by omega), if_pos (by omega),
        Nat.add_sub_cancel_left]
    -- the bounds leave out longer encodings of smaller characters, and the surrogates
    have hlower : (if 0xE0 + n / 4096 = 0xE0 then 0xA0 else 0x80) ≤ 0x80 + n / 64 % 64 := by
      split <;> omega
    have hupper : 0x80 + n / 64 % 64 ≤ (if 0xE0 + n / 4096 = 0xED then 0x9F else 0xBF) := by
      split <;> omega
    have hsecond : n / 4096 * 64 + n / 64 % 64 = n / 64 := by omega
    have hlast : n / 64 * 64 + n % 64 = n := by omega
    rw [run_first (by omega) hfirst, run_within (by omega) hlower hupper, hsecond,
      run_last (by omega) (by omega) (by omega), hlast, hc]
  · next h1 h2 h3 =>
    have hfirst : first (0xF0 + n / 262144) = (.within 3 (n / 262144)
        (if 0xF0 + n / 262144 = 0xF0 then 0x90 else 0x80)
        (if 0xF0 + n / 262144 = 0xF4 then 0x8F else 0xBF), []) := by
      rw [first, if_neg (by omega), if_neg (by omega), if_neg (by omega), if_neg (by omega),
        if_pos (by omega), Nat.add_sub_cancel_left]
    have hlower : (if 0xF0 + n / 262144 = 0xF0 then 0x90 else 0x80) ≤ 0x80 + n / 4096 % 64 := by
      split <;> omega
    have hupper : 0x80 + n / 4096 % 64 ≤ (if 0xF0 + n / 262144 = 0xF4 then 0x8F else 0xBF) := by
      split <;> omega
    have hsecond : n / 262144 * 64 + n / 4096 % 64 = n / 4096 := by omega
    have hthird : n / 4096 * 64 + n / 64 % 64 = n / 64 := by omega
    have hlast : n / 64 * 64 + n % 64 = n := by omega
    rw [run_first (by omega) hfirst, run_within (by omega) hlower hupper, hsecond,
      run_within (by omega) (by omega) (by omega), hthird, run_last (by omega) (by omega) (by omega),
      hlast, hc]

theorem run_encode (cs : List Char) : run .start (encode cs) = (.start, cs) := by
  induction cs with
  | nil => rfl
  | cons c cs ih =>
    rw [encode, List.flatMap_cons, run_append, run_encodeChar, ← encode, ih]
    rfl

theorem decode_encode (cs : List Char) : decode (encode cs) = cs := by
  simp [decode, run_encode, finish]

end Utf8
