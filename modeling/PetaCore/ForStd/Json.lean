import Mathlib.Algebra.Group.Int.Defs
import Mathlib.Algebra.Group.Nat.Defs
import Mathlib.Data.List.Lex
import Mathlib.Data.List.Sort

/-!
# JSON values and their text

JSON values as JavaScript holds them after `JSON.parse`, and the text `JSON.stringify`
prints for them. A finite JavaScript number is represented by the shortest decimal that
reads back as it: two numbers are equal exactly when these decimals are, and they
compare as these decimals do. An object lists its members in the order in which
`Object.keys` does.
-/

/-- A finite number `mantissa * 10 ^ exponent` in lowest terms (`-0` is `0`). -/
structure JsNumber where
  mantissa : Int
  exponent : Int
  canonical : mantissa % 10 ≠ 0 ∨ (mantissa = 0 ∧ exponent = 0)
deriving DecidableEq

/-- A JSON value. -/
inductive Json where
  | null
  | bool (b : Bool)
  | num (n : JsNumber)
  | str (s : String)
  | arr (items : List Json)
  | obj (members : List (String × Json))
deriving Inhabited

/-! ## Numbers -/

namespace JsNumber

/-- Move trailing zeros of `m` into the exponent, at most `fuel` of them. -/
def strip : (fuel m : Nat) → (e : Nat) → Nat × Nat
  | 0, m, e => (m, e)
  | fuel + 1, m, e => if m % 10 = 0 then strip fuel (m / 10) (e + 1) else (m, e)

theorem strip_value (fuel m e : Nat) :
    (strip fuel m e).1 * 10 ^ (strip fuel m e).2 = m * 10 ^ e := by
  induction fuel generalizing m e with
  | zero => rfl
  | succ fuel ih =>
    simp only [strip]
    split
    · rename_i hmod
      rw [ih, Nat.pow_succ, Nat.mul_comm (10 ^ e) 10, ← Nat.mul_assoc]
      have : m / 10 * 10 = m := Nat.div_mul_cancel (Nat.dvd_of_mod_eq_zero hmod)
      rw [this]
    · rfl

theorem strip_canonical (fuel m e : Nat) (hm : 0 < m) (hfuel : m ≤ fuel) :
    (strip fuel m e).1 % 10 ≠ 0 := by
  induction fuel generalizing m e with
  | zero => omega
  | succ fuel ih =>
    simp only [strip]
    split
    · exact ih (m / 10) (e + 1) (by omega) (by omega)
    · assumption

theorem canonical_zero : (0 : Int) % 10 ≠ 0 ∨ ((0 : Int) = 0 ∧ (0 : Int) = 0) :=
  Or.inr ⟨rfl, rfl⟩

/-- A natural number as a JavaScript number. -/
def ofNat (n : Nat) : JsNumber :=
  if h : n = 0 then ⟨0, 0, canonical_zero⟩
  else ⟨(strip n n 0).1, (strip n n 0).2, Or.inl (by
    have := strip_canonical n n 0 (Nat.pos_of_ne_zero h) (Nat.le_refl n)
    omega)⟩

theorem ofNat_injective {m n : Nat} (h : ofNat m = ofNat n) : m = n := by
  have value : ∀ k, k = (ofNat k).mantissa.toNat * 10 ^ (ofNat k).exponent.toNat := by
    intro k
    by_cases hk : k = 0
    · simp [ofNat, hk]
    · have := strip_value k k 0
      simp [ofNat, hk, this]
  rw [value m, value n, h]

/-- Whether a number is at most another one, over a common exponent. -/
def le (a b : JsNumber) : Bool :=
  let e := min a.exponent b.exponent
  decide (a.mantissa * 10 ^ (a.exponent - e).toNat ≤ b.mantissa * 10 ^ (b.exponent - e).toNat)

/-- Numbers compare the same over any common exponent. -/
theorem le_iff {a b : JsNumber} {e : Int} (ha : e ≤ a.exponent) (hb : e ≤ b.exponent) :
    le a b = true ↔
      a.mantissa * 10 ^ (a.exponent - e).toNat ≤ b.mantissa * 10 ^ (b.exponent - e).toNat := by
  have hscale : ∀ c : JsNumber, min a.exponent b.exponent ≤ c.exponent →
      c.mantissa * 10 ^ (c.exponent - e).toNat =
        c.mantissa * 10 ^ (c.exponent - min a.exponent b.exponent).toNat *
          10 ^ (min a.exponent b.exponent - e).toNat := by
    intro c hc
    rw [Int.mul_assoc, ← Int.pow_add]
    congr 2
    omega
  have hpos : (0 : Int) < 10 ^ (min a.exponent b.exponent - e).toNat := Int.pow_pos (by omega)
  rw [le, decide_eq_true_eq, hscale a (by omega), hscale b (by omega)]
  exact (Int.mul_le_mul_right hpos).symm

theorem le_total (a b : JsNumber) : le a b = true ∨ le b a = true := by
  have hmin : min a.exponent b.exponent ≤ a.exponent ∧ min a.exponent b.exponent ≤ b.exponent :=
    by omega
  rw [le_iff hmin.1 hmin.2, le_iff hmin.2 hmin.1]
  omega

theorem le_trans {a b c : JsNumber} (hab : le a b = true) (hbc : le b c = true) :
    le a c = true := by
  obtain ⟨e, ha, hb, hc⟩ : ∃ e, e ≤ a.exponent ∧ e ≤ b.exponent ∧ e ≤ c.exponent :=
    ⟨min a.exponent (min b.exponent c.exponent), by omega, by omega, by omega⟩
  rw [le_iff ha hb] at hab
  rw [le_iff hb hc] at hbc
  rw [le_iff ha hc]
  omega

/-- The digits of `m * 10 ^ e` as `Number.prototype.toString` lays them out; `point` is
    the position of the decimal point relative to the first digit. -/
def decimal (m : Nat) (e : Int) : List Char :=
  let digits := Nat.toDigits 10 m
  let point : Int := digits.length + e
  if digits.length ≤ point ∧ point ≤ 21 then
    digits ++ List.replicate e.toNat '0'
  else if 0 < point ∧ point ≤ 21 then
    digits.take point.toNat ++ '.' :: digits.drop point.toNat
  else if -6 < point ∧ point ≤ 0 then
    '0' :: '.' :: (List.replicate (-point).toNat '0' ++ digits)
  else
    digits.take 1 ++ (if digits.length = 1 then [] else '.' :: digits.drop 1) ++
      'e' :: (if 0 ≤ point - 1 then '+' else '-') :: Nat.toDigits 10 (point - 1).natAbs

/-- `Number.prototype.toString` -/
def toChars (n : JsNumber) : List Char :=
  if n.mantissa < 0 then '-' :: decimal n.mantissa.natAbs n.exponent
  else decimal n.mantissa.natAbs n.exponent

end JsNumber

/-! ## JSON.stringify -/

namespace Json

/-- One character inside a string literal. -/
def escapeChar (c : Char) : List Char :=
  match c with
  | '\x08' => ['\\', 'b']
  | '\t' => ['\\', 't']
  | '\n' => ['\\', 'n']
  | '\x0c' => ['\\', 'f']
  | '\r' => ['\\', 'r']
  | '"' => ['\\', '"']
  | '\\' => ['\\', '\\']
  | c =>
    if c.toNat < 32 then
      ['\\', 'u', '0', '0', Nat.digitChar (c.toNat / 16), Nat.digitChar (c.toNat % 16)]
    else [c]

/-- A string literal. -/
def quote (s : String) : List Char := '"' :: (s.toList.flatMap escapeChar ++ ['"'])

mutual

/-- The text of a value. -/
def chars : Json → List Char
  | null => ['n', 'u', 'l', 'l']
  | bool true => ['t', 'r', 'u', 'e']
  | bool false => ['f', 'a', 'l', 's', 'e']
  | num n => n.toChars
  | str s => quote s
  | arr [] => ['[', ']']
  | arr (a :: as) => '[' :: (chars a ++ itemsChars as)
  | obj [] => ['\x7b', '\x7d']
  | obj ((k, a) :: ms) => '\x7b' :: (quote k ++ ':' :: (chars a ++ membersChars ms))

/-- The items of an array after the first one. -/
def itemsChars : List Json → List Char
  | [] => [']']
  | a :: as => ',' :: (chars a ++ itemsChars as)

/-- The members of an object after the first one. -/
def membersChars : List (String × Json) → List Char
  | [] => ['\x7d']
  | (k, a) :: ms => ',' :: (quote k ++ ':' :: (chars a ++ membersChars ms))

end

/-- `JSON.stringify` -/
def stringify (a : Json) : String := String.ofList (chars a)

/-! ## Property order -/

/-- The number of a key that is an array index, which objects list first. -/
def arrayIndex? (k : String) : Option Nat :=
  match k.toNat? with
  | some n => if toString n = k ∧ n < 2 ^ 32 - 1 then some n else none
  | none => none

/-- `Object.fromEntries`, for entries with different keys: array indices in numeric order,
    then the other keys as given. -/
def fromEntries (entries : List (String × Json)) : Json :=
  let index (e : String × Json) : Nat := (arrayIndex? e.1).getD 0
  obj ((entries.filter fun e => (arrayIndex? e.1).isSome).insertionSort
      (fun e e' => index e ≤ index e') ++
    entries.filter fun e => (arrayIndex? e.1).isNone)

/-- The UTF-16 code units of a character. -/
def codeUnits (c : Char) : List Nat :=
  if c.toNat < 0x10000 then [c.toNat]
  else [0xD800 + (c.toNat - 0x10000) / 0x400, 0xDC00 + (c.toNat - 0x10000) % 0x400]

/-- The order of `Array.prototype.sort` on strings. -/
def keyLe (k k' : String) : Bool :=
  decide (k.toList.flatMap codeUnits ≤ k'.toList.flatMap codeUnits)

end Json
