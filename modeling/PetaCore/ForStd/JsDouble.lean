import PetaCore.ForStd.JsonText

/-!
# Reading decimals as doubles

JavaScript reads a decimal as the nearest double, ties to even, and prints a double as the shortest
decimal that reads back as it. Numbers are represented by these shortest decimals, so reading is a
function on decimals here, and the numbers of a program are its fixed points. A decimal beyond the
range of doubles reads as an infinity, which `10 ^ 309` and its negation stand for.
-/

namespace JsNumber

theorem canonical_ofDecimal (negative : Bool) {m : Nat} (h : ¬m = 0) :
    (if negative then -((strip m m 0).1 : Int) else (strip m m 0).1) % 10 ≠ 0 := by
  have := strip_canonical m m 0 (Nat.pos_of_ne_zero h) (Nat.le_refl m)
  split <;> omega

/-- The number `m * 10 ^ e`, perhaps negated, in lowest terms. -/
def ofDecimal (negative : Bool) (m : Nat) (e : Int) : JsNumber :=
  if h : m = 0 then ⟨0, 0, canonical_zero⟩
  else ⟨if negative then -(strip m m 0).1 else (strip m m 0).1, e + (strip m m 0).2,
    Or.inl (canonical_ofDecimal negative h)⟩

/-! ## The nearest double -/

/-- `num / den` rounded to a natural number, ties to the even one. -/
def roundDiv (num den : Nat) : Nat :=
  let twice := 2 * (num % den)
  if twice < den ∨ (twice = den ∧ num / den % 2 = 0) then num / den else num / den + 1

/-- `(num / den) / b ^ e` -/
def unscale (b num den : Nat) (e : Int) : Nat × Nat := (num * b ^ (-e).toNat, den * b ^ e.toNat)

/-- The double nearest to a positive fraction, ties to even: its significand, of at most 53 bits,
    and its exponent. -/
def nearestDouble (num den : Nat) : Nat × Int :=
  let guess : Int := (num.log2 : Int) - den.log2 - 53
  let scaled := unscale 2 num den guess
  let e := max (-1074) (if scaled.1 < scaled.2 * 2 ^ 53 then guess else guess + 1)
  let scaled := unscale 2 num den e
  (roundDiv scaled.1 scaled.2, e)

/-- The value of a double as a fraction. -/
def fraction (double : Nat × Int) : Nat × Nat := unscale 2 double.1 1 (-double.2)

/-! ## The shortest decimal -/

/-- Whether `s * 10 ^ x` reads as the double with this value. -/
def readsAs (value : Nat × Nat) (s : Nat) (x : Int) : Bool :=
  let scaled := unscale 10 s 1 (-x)
  let read := fraction (nearestDouble scaled.1 scaled.2)
  0 < s && read.1 * value.2 == value.1 * read.2

/-- The decimal with the fewest digits that reads as the double, the closest one of these. It tries
    exponents from `x` downwards; 17 digits are always enough. -/
def shortest (value : Nat × Nat) : (fuel : Nat) → (x : Int) → Nat × Int
  | 0, x => (0, x)
  | fuel + 1, x =>
    let scaled := unscale 10 value.1 value.2 x
    let closest := roundDiv scaled.1 scaled.2
    let other := if closest = scaled.1 / scaled.2 then closest + 1 else closest - 1
    if readsAs value closest x then (closest, x)
    else if readsAs value other x then (other, x)
    else shortest value fuel (x - 1)

/-- The number that a decimal reads as. -/
def toDouble (n : JsNumber) : JsNumber :=
  let m := n.mantissa.natAbs
  let negative := decide (n.mantissa < 0)
  let point : Int := (Nat.toDigits 10 m).length + n.exponent
  if m = 0 ∨ point < -330 then ofDecimal false 0 0
  else if 310 < point then ofDecimal negative 1 309
  else
    let decimal := unscale 10 m 1 (-n.exponent)
    let value := fraction (nearestDouble decimal.1 decimal.2)
    if 2 ^ 1024 * value.2 ≤ value.1 then ofDecimal negative 1 309
    else if value.1 = 0 then ofDecimal false 0 0
    else
      let s := shortest value 20 (point + 1)
      ofDecimal negative s.1 s.2

/-- A finite number of a program. -/
def IsDouble (n : JsNumber) : Prop :=
  n.toDouble = n ∧ n ≠ ofDecimal false 1 309 ∧ n ≠ ofDecimal true 1 309

instance (n : JsNumber) : Decidable n.IsDouble := inferInstanceAs (Decidable (_ ∧ _ ∧ _))

/-- Trailing zeros of the mantissa are moved into the exponent. -/
theorem ofDecimal_mul_pow (n : JsNumber) (j : Nat) {m : Nat} {e : Int}
    (hm : m = n.mantissa.natAbs * 10 ^ j) (he : e + j = n.exponent) :
    ofDecimal (decide (n.mantissa < 0)) m e = n := by
  obtain ⟨mantissa, exponent, hcanon⟩ := n
  simp only at hm he
  have hpow : 0 < 10 ^ j := Nat.pow_pos (by decide)
  by_cases hzero : m = 0
  · have hmant : mantissa = 0 := by
      have hprod := hm.symm.trans hzero
      cases Nat.mul_eq_zero.mp hprod with
      | inl h => exact Int.natAbs_eq_zero.mp h
      | inr h => omega
    simp only [ofDecimal, dif_pos hzero, JsNumber.mk.injEq]
    omega
  · have hmant : mantissa.natAbs ≠ 0 := by
      intro h
      rw [h, Nat.zero_mul] at hm
      exact hzero hm
    have hvalue := strip_value m m 0
    rw [Nat.pow_zero, Nat.mul_one] at hvalue
    have hstrip := strip_canonical m m 0 (Nat.pos_of_ne_zero hzero) (Nat.le_refl m)
    obtain ⟨hm', hj⟩ := eq_of_mul_pow hstrip (by omega : mantissa.natAbs % 10 ≠ 0)
      (hvalue.trans hm)
    simp only [ofDecimal, dif_neg hzero, hm', hj, JsNumber.mk.injEq, decide_eq_true_eq]
    constructor
    · split <;> omega
    · omega

end JsNumber
