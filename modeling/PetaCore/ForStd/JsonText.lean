import PetaCore.ForStd.Json

/-!
# JSON.stringify is injective

The text of a value followed by anything that cannot continue a number determines the
value and what follows, so texts can be read off from left to right.

## Key results

- `JsNumber.toChars_injective`: the printed form of a number determines it
- `Json.stringify_injective`: the printed form of a value determines it
-/

/-! ## Numbers -/

namespace JsNumber

/-- The characters a printed number consists of. -/
def isNumChar (c : Char) : Bool :=
  c.isDigit || c == '.' || c == 'e' || c == '+' || c == '-'

/-- Mantissa digits as a number, and exponent, of a printed number without sign. -/
def read (cs : List Char) : Nat × Int :=
  let mantissa := cs.takeWhile (· != 'e')
  let frac := (mantissa.dropWhile (· != '.')).drop 1
  let exponent : Int :=
    match cs.dropWhile (· != 'e') with
    | _ :: '-' :: ds => -(Nat.ofDigitChars 10 ds 0 : Int)
    | _ :: _ :: ds => Nat.ofDigitChars 10 ds 0
    | _ => 0
  (Nat.ofDigitChars 10 (mantissa.takeWhile (· != '.') ++ frac) 0, exponent - frac.length)

theorem digit_of_mem {m : Nat} {c : Char} (h : c ∈ Nat.toDigits 10 m) :
    c.isDigit = true :=
  Nat.isDigit_of_mem_toDigits (by decide) (by decide) h

theorem ne_of_isDigit {c d : Char} (h : c.isDigit = true) (hd : d.isDigit = false) :
    (c != d) = true := by
  simp only [bne_iff_ne, ne_eq]
  intro heq
  rw [heq, hd] at h
  cases h

theorem takeWhile_all {p : Char → Bool} {xs : List Char} (h : ∀ c ∈ xs, p c = true)
    (y : Char) (ys : List Char) (hy : p y = false) :
    (xs ++ y :: ys).takeWhile p = xs ∧ (xs ++ y :: ys).dropWhile p = y :: ys := by
  constructor
  · rw [List.takeWhile_append_of_pos h, List.takeWhile_cons_of_neg (by simp [hy]),
      List.append_nil]
  · rw [List.dropWhile_append_of_pos h, List.dropWhile_cons_of_neg (by simp [hy])]

theorem takeWhile_self {p : Char → Bool} {xs : List Char} (h : ∀ c ∈ xs, p c = true) :
    xs.takeWhile p = xs ∧ xs.dropWhile p = [] := by
  have htake : (xs ++ []).takeWhile p = xs ++ [] := List.takeWhile_append_of_pos h
  have hdrop : (xs ++ []).dropWhile p = [] := List.dropWhile_append_of_pos h
  rw [List.append_nil] at htake hdrop
  exact ⟨htake, hdrop⟩

/-- Reading a plain run of digits. -/
private theorem read_int {ds : List Char} (h : ∀ c ∈ ds, c.isDigit = true) :
    read ds = (Nat.ofDigitChars 10 ds 0, 0) := by
  have he := takeWhile_self (p := (· != 'e')) fun c hc => ne_of_isDigit (h c hc) rfl
  have hp := takeWhile_self (p := (· != '.')) fun c hc => ne_of_isDigit (h c hc) rfl
  simp [read, he.1, he.2, hp.1, hp.2]

/-- There is no exponent in digits around a decimal point. -/
private theorem ne_e_of_isDigit {ds fs : List Char} (h : ∀ c ∈ ds, c.isDigit = true)
    (h' : ∀ c ∈ fs, c.isDigit = true) (c : Char) (hc : c ∈ ds ++ '.' :: fs) :
    (c != 'e') = true := by
  rcases List.mem_append.mp hc with hc | hc
  · exact ne_of_isDigit (h c hc) rfl
  · rcases List.mem_cons.mp hc with rfl | hc
    · rfl
    · exact ne_of_isDigit (h' c hc) rfl

/-- Reading digits around a decimal point. -/
private theorem read_frac (ds fs : List Char) (h : ∀ c ∈ ds, c.isDigit = true)
    (h' : ∀ c ∈ fs, c.isDigit = true) :
    read (ds ++ '.' :: fs) = (Nat.ofDigitChars 10 (ds ++ fs) 0, -(fs.length : Int)) := by
  have he := takeWhile_self (ne_e_of_isDigit h h')
  have hp := takeWhile_all (p := (· != '.')) (fun c hc => ne_of_isDigit (h c hc) rfl) '.' fs rfl
  simp [read, he.1, he.2, hp.1, hp.2]

/-- The exponent part of a printed number. -/
private def expChars (x : Int) : List Char :=
  (if 0 ≤ x then '+' else '-') :: Nat.toDigits 10 x.natAbs

private theorem exp_read (x : Int) :
    (match 'e' :: expChars x with
      | _ :: '-' :: ds => -(Nat.ofDigitChars 10 ds 0 : Int)
      | _ :: _ :: ds => (Nat.ofDigitChars 10 ds 0 : Int)
      | _ => 0) = x := by
  have hnat : Nat.ofDigitChars 10 (Nat.toDigits 10 x.natAbs) 0 = x.natAbs :=
    Nat.ofDigitChars_toDigits (by decide) (by decide)
  by_cases hx : 0 ≤ x
  · rw [show expChars x = '+' :: Nat.toDigits 10 x.natAbs by simp [expChars, hx]]
    show (Nat.ofDigitChars 10 (Nat.toDigits 10 x.natAbs) 0 : Int) = x
    rw [hnat]
    exact Int.natAbs_of_nonneg hx
  · rw [show expChars x = '-' :: Nat.toDigits 10 x.natAbs by simp [expChars, hx]]
    show -(Nat.ofDigitChars 10 (Nat.toDigits 10 x.natAbs) 0 : Int) = x
    rw [hnat]
    omega

/-- Reading a number in exponent notation without fraction. -/
private theorem read_exp {ds : List Char} (h : ∀ c ∈ ds, c.isDigit = true) (x : Int) :
    read (ds ++ 'e' :: expChars x) = (Nat.ofDigitChars 10 ds 0, x) := by
  have he := takeWhile_all (p := (· != 'e')) (fun c hc => ne_of_isDigit (h c hc) rfl) 'e'
    (expChars x) rfl
  have hp := takeWhile_self (p := (· != '.')) fun c hc => ne_of_isDigit (h c hc) rfl
  have hx := exp_read x
  simp only [read, he.1, he.2, hp.1, hp.2, hx]
  simp

/-- Reading a number in exponent notation with fraction. -/
private theorem read_frac_exp {ds fs : List Char} (h : ∀ c ∈ ds, c.isDigit = true)
    (h' : ∀ c ∈ fs, c.isDigit = true) (x : Int) :
    read (ds ++ '.' :: fs ++ 'e' :: expChars x) =
      (Nat.ofDigitChars 10 (ds ++ fs) 0, x - fs.length) := by
  have he := takeWhile_all (ne_e_of_isDigit h h') 'e' (expChars x) rfl
  have hp := takeWhile_all (p := (· != '.')) (fun c hc => ne_of_isDigit (h c hc) rfl) '.' fs rfl
  have hx := exp_read x
  simp only [read, he.1, he.2, hp.1, hp.2, hx]
  simp

/-- Reading back a printed decimal gives it up to trailing zeros. -/
theorem read_decimal (m : Nat) (e : Int) :
    ∃ j : Nat, (read (decimal m e)).1 = m * 10 ^ j ∧ (read (decimal m e)).2 + j = e := by
  have hm : Nat.ofDigitChars 10 (Nat.toDigits 10 m) 0 = m :=
    Nat.ofDigitChars_toDigits (by decide) (by decide)
  have hd : ∀ c ∈ Nat.toDigits 10 m, c.isDigit = true := fun c hc => digit_of_mem hc
  have hpos : 0 < (Nat.toDigits 10 m).length := Nat.length_toDigits_pos
  simp only [decimal]
  generalize hdig : Nat.toDigits 10 m = digits at hm hd hpos
  split
  · -- an integer, padded with zeros
    rename_i hcase
    have hpad : ∀ c ∈ digits ++ List.replicate e.toNat '0', c.isDigit = true := by
      intro c hc
      rcases List.mem_append.mp hc with hc | hc
      · exact hd c hc
      · rw [(List.mem_replicate.mp hc).2]
        rfl
    refine ⟨e.toNat, ?_, ?_⟩
    · rw [read_int hpad, Nat.ofDigitChars_append, hm, Nat.ofDigitChars_replicate_zero,
        Nat.mul_comm]
    · rw [read_int hpad]
      omega
  · split
    · -- the point falls between two digits
      rename_i hcase
      have hread := read_frac (digits.take (digits.length + e).toNat)
        (digits.drop (digits.length + e).toNat)
        (fun c hc => hd c (List.mem_of_mem_take hc)) (fun c hc => hd c (List.mem_of_mem_drop hc))
      rw [hread]
      refine ⟨0, ?_, ?_⟩
      · rw [List.take_append_drop, hm]
        omega
      · simp only [List.length_drop]
        omega
    · split
      · -- zeros after the point
        rename_i hcase
        have hz : ∀ c ∈ List.replicate (-(digits.length + e)).toNat '0' ++ digits,
            c.isDigit = true := by
          intro c hc
          rcases List.mem_append.mp hc with hc | hc
          · rw [(List.mem_replicate.mp hc).2]
            rfl
          · exact hd c hc
        have hread := read_frac ['0'] _ (by simp) hz
        simp only [List.singleton_append] at hread
        rw [hread]
        refine ⟨0, ?_, ?_⟩
        · rw [Nat.ofDigitChars_cons, Nat.ofDigitChars_append, Nat.ofDigitChars_replicate_zero]
          simp [hm]
        · simp only [List.length_append, List.length_replicate]
          omega
      · -- exponent notation
        have htake : ∀ c ∈ digits.take 1, c.isDigit = true :=
          fun c hc => hd c (List.mem_of_mem_take hc)
        split
        · rename_i hlen
          have hread := read_exp htake (digits.length + e - 1)
          simp only [expChars] at hread
          simp only [List.append_nil]
          rw [hread, List.take_of_length_le (by omega), hm]
          refine ⟨0, by omega, ?_⟩
          omega
        · have hread := read_frac_exp htake
            (fun c hc => hd c (List.mem_of_mem_drop hc) : ∀ c ∈ digits.drop 1, c.isDigit = true)
            (digits.length + e - 1)
          simp only [expChars] at hread
          rw [hread, List.take_append_drop, hm]
          refine ⟨0, by omega, ?_⟩
          simp only [List.length_drop]
          omega

theorem eq_of_mul_pow {m m' j j' : Nat} (hm : m % 10 ≠ 0) (hm' : m' % 10 ≠ 0)
    (h : m * 10 ^ j = m' * 10 ^ j') : m = m' ∧ j = j' := by
  induction j generalizing j' with
  | zero =>
    cases j' with
    | zero => exact ⟨by simpa using h, rfl⟩
    | succ j' =>
      rw [Nat.pow_succ, ← Nat.mul_assoc] at h
      omega
  | succ j ih =>
    cases j' with
    | zero =>
      rw [Nat.pow_succ, ← Nat.mul_assoc] at h
      omega
    | succ j' =>
      rw [Nat.pow_succ, Nat.pow_succ, ← Nat.mul_assoc, ← Nat.mul_assoc] at h
      obtain ⟨hmm, hjj⟩ := ih (Nat.eq_of_mul_eq_mul_right (by decide) h)
      exact ⟨hmm, by omega⟩

/-- Decimals in lowest terms with the same text are the same. -/
theorem decimal_injective {m m' : Nat} {e e' : Int}
    (hm : m % 10 ≠ 0 ∨ (m = 0 ∧ e = 0)) (hm' : m' % 10 ≠ 0 ∨ (m' = 0 ∧ e' = 0))
    (h : decimal m e = decimal m' e') : m = m' ∧ e = e' := by
  obtain ⟨j, hval, hexp⟩ := read_decimal m e
  obtain ⟨j', hval', hexp'⟩ := read_decimal m' e'
  rw [← h] at hval' hexp'
  have hv : m * 10 ^ j = m' * 10 ^ j' := by rw [← hval, ← hval']
  have hp : 0 < 10 ^ j := Nat.pow_pos (by decide)
  have hp' : 0 < 10 ^ j' := Nat.pow_pos (by decide)
  rcases hm with hm | ⟨rfl, rfl⟩ <;> rcases hm' with hm' | ⟨rfl, rfl⟩
  · obtain ⟨rfl, rfl⟩ := eq_of_mul_pow hm hm' hv
    exact ⟨rfl, by omega⟩
  · rw [Nat.zero_mul] at hv
    rcases Nat.mul_eq_zero.mp hv with hz | hz <;> omega
  · rw [Nat.zero_mul] at hv
    rcases Nat.mul_eq_zero.mp hv.symm with hz | hz <;> omega
  · exact ⟨rfl, rfl⟩

private theorem isNumChar_of_isDigit {c : Char} (h : c.isDigit = true) :
    isNumChar c = true := by
  simp [isNumChar, h]

private theorem digits_isNumChar (m : Nat) : ∀ c ∈ Nat.toDigits 10 m, isNumChar c = true :=
  fun _ hc => isNumChar_of_isDigit (digit_of_mem hc)

theorem decimal_isNumChar (m : Nat) (e : Int) : ∀ c ∈ decimal m e, isNumChar c = true := by
  intro c hc
  have hd := digits_isNumChar m
  simp only [decimal] at hc
  split at hc
  · rcases List.mem_append.mp hc with hc | hc
    · exact hd c hc
    · rw [(List.mem_replicate.mp hc).2]
      rfl
  · split at hc
    · rcases List.mem_append.mp hc with hc | hc
      · exact hd c (List.mem_of_mem_take hc)
      · rcases List.mem_cons.mp hc with rfl | hc
        · rfl
        · exact hd c (List.mem_of_mem_drop hc)
    · split at hc
      · rcases List.mem_cons.mp hc with rfl | hc
        · rfl
        · rcases List.mem_cons.mp hc with rfl | hc
          · rfl
          · rcases List.mem_append.mp hc with hc | hc
            · rw [(List.mem_replicate.mp hc).2]
              rfl
            · exact hd c hc
      · rcases List.mem_append.mp hc with hc | hc
        · rcases List.mem_append.mp hc with hc | hc
          · exact hd c (List.mem_of_mem_take hc)
          · split at hc
            · cases hc
            · rcases List.mem_cons.mp hc with rfl | hc
              · rfl
              · exact hd c (List.mem_of_mem_drop hc)
        · rcases List.mem_cons.mp hc with rfl | hc
          · rfl
          · rcases List.mem_cons.mp hc with rfl | hc
            · split <;> rfl
            · exact digits_isNumChar _ c hc

/-- A printed number without sign starts with a digit. -/
theorem decimal_cons (m : Nat) (e : Int) :
    ∃ c cs, decimal m e = c :: cs ∧ c.isDigit = true := by
  have hd : ∀ c ∈ Nat.toDigits 10 m, c.isDigit = true := fun c hc => digit_of_mem hc
  have hpos : 0 < (Nat.toDigits 10 m).length := Nat.length_toDigits_pos
  simp only [decimal]
  generalize Nat.toDigits 10 m = digits at hd hpos
  cases digits with
  | nil => exact absurd hpos (Nat.lt_irrefl 0)
  | cons d ds =>
    have hdig := hd d List.mem_cons_self
    split
    · exact ⟨d, _, rfl, hdig⟩
    · split
      · rename_i hcase
        obtain ⟨k, hk⟩ : ∃ k, (((d :: ds).length : Int) + e).toNat = k + 1 :=
          ⟨(((d :: ds).length : Int) + e).toNat - 1, by omega⟩
        rw [hk]
        exact ⟨d, _, rfl, hdig⟩
      · split
        · exact ⟨'0', _, rfl, rfl⟩
        · exact ⟨d, _, rfl, hdig⟩

theorem toChars_isNumChar (n : JsNumber) : ∀ c ∈ n.toChars, isNumChar c = true := by
  intro c hc
  simp only [toChars] at hc
  split at hc
  · rcases List.mem_cons.mp hc with rfl | hc
    · rfl
    · exact decimal_isNumChar _ _ c hc
  · exact decimal_isNumChar _ _ c hc

/-- The first character of a printed number. -/
theorem toChars_cons (n : JsNumber) :
    ∃ c cs, n.toChars = c :: cs ∧ isNumChar c = true := by
  obtain ⟨c, cs, hdec, hc⟩ := decimal_cons n.mantissa.natAbs n.exponent
  simp only [toChars]
  split
  · exact ⟨'-', _, rfl, rfl⟩
  · exact ⟨c, cs, hdec, isNumChar_of_isDigit hc⟩

/-- The printed form of a number determines it. -/
theorem toChars_injective {n n' : JsNumber} (h : n.toChars = n'.toChars) : n = n' := by
  obtain ⟨m, e, hm⟩ := n
  obtain ⟨m', e', hm'⟩ := n'
  obtain ⟨c, cs, hdec, hc⟩ := decimal_cons m.natAbs e
  obtain ⟨c', cs', hdec', hc'⟩ := decimal_cons m'.natAbs e'
  simp only [toChars] at h
  have hcanon : m.natAbs % 10 ≠ 0 ∨ (m.natAbs = 0 ∧ e = 0) := by omega
  have hcanon' : m'.natAbs % 10 ≠ 0 ∨ (m'.natAbs = 0 ∧ e' = 0) := by omega
  -- the signs agree, since no decimal starts with a minus sign
  have key : decimal m.natAbs e = decimal m'.natAbs e' ∧ (m < 0 ↔ m' < 0) := by
    split at h <;> split at h
    · exact ⟨List.tail_eq_of_cons_eq h, by omega⟩
    · rw [hdec'] at h
      rw [← List.head_eq_of_cons_eq h] at hc'
      cases hc'
    · rw [hdec] at h
      rw [List.head_eq_of_cons_eq h] at hc
      cases hc
    · exact ⟨h, by omega⟩
  obtain ⟨hmm, rfl⟩ := decimal_injective hcanon hcanon' key.1
  have hsign := key.2
  obtain rfl : m = m' := by omega
  rfl

end JsNumber

/-! ## Strings -/

namespace Json

/-- Reading one character of a string literal. -/
def readChar : List Char → Option (Char × List Char)
  | '\\' :: 'u' :: _ :: _ :: a :: b :: cs =>
    some (Char.ofNat (16 * (a.toNat - 48) + hexDigit b), cs)
  | '\\' :: c :: cs =>
    some (match c with
      | 'b' => '\x08'
      | 't' => '\t'
      | 'n' => '\n'
      | 'f' => '\x0c'
      | 'r' => '\r'
      | c => c, cs)
  | c :: cs => some (c, cs)
  | [] => none
where
  hexDigit (b : Char) : Nat := if b.isDigit then b.toNat - 48 else b.toNat - 87

private theorem readChar_control (n : Nat) (hn : n < 32) (cs : List Char) :
    readChar (escapeChar (Char.ofNat n) ++ cs) = some (Char.ofNat n, cs) := by
  iterate 32
    obtain _ | n := n
    · rfl
  omega

theorem escapeChar_plain {c : Char} (hq : c ≠ '"') (hb : c ≠ '\\')
    (hc : ¬c.toNat < 32) : escapeChar c = [c] := by
  unfold escapeChar
  split
  iterate 5
    · exact absurd (by decide) hc
  · exact absurd rfl hq
  · exact absurd rfl hb
  · rw [if_neg hc]

/-- Reading undoes escaping. -/
theorem readChar_escapeChar (c : Char) (cs : List Char) :
    readChar (escapeChar c ++ cs) = some (c, cs) := by
  by_cases hc : c.toNat < 32
  · have h := readChar_control c.toNat hc cs
    rwa [Char.ofNat_toNat] at h
  · by_cases hq : c = '"'
    · subst hq
      rfl
    · by_cases hb : c = '\\'
      · subst hb
        rfl
      · rw [escapeChar_plain hq hb hc]
        show readChar (c :: cs) = some (c, cs)
        unfold readChar
        split
        · rename_i heq
          exact absurd (List.head_eq_of_cons_eq heq) hb
        · rename_i heq
          exact absurd (List.head_eq_of_cons_eq heq) hb
        · rename_i heq
          simp only [List.cons.injEq] at heq
          rw [heq.1, heq.2]
        · rename_i heq
          cases heq

theorem escapeChar_cons (c : Char) : ∃ d ds, escapeChar c = d :: ds ∧ d ≠ '"' := by
  by_cases hc : c.toNat < 32
  · refine ⟨'\\', (escapeChar c).tail, ?_, by decide⟩
    have h : ∀ n < 32, escapeChar (Char.ofNat n) = '\\' :: (escapeChar (Char.ofNat n)).tail := by
      decide
    have := h c.toNat hc
    rwa [Char.ofNat_toNat] at this
  · by_cases hq : c = '"'
    · subst hq
      exact ⟨'\\', ['"'], rfl, by decide⟩
    · by_cases hb : c = '\\'
      · subst hb
        exact ⟨'\\', ['\\'], rfl, by decide⟩
      · exact ⟨c, [], escapeChar_plain hq hb hc, hq⟩

private theorem body_inj (cs cs' rest rest' : List Char)
    (h : cs.flatMap escapeChar ++ '"' :: rest = cs'.flatMap escapeChar ++ '"' :: rest') :
    cs = cs' ∧ rest = rest' := by
  induction cs generalizing cs' with
  | nil =>
    cases cs' with
    | nil => exact ⟨rfl, List.tail_eq_of_cons_eq h⟩
    | cons c' cs' =>
      obtain ⟨d, ds, hd, hne⟩ := escapeChar_cons c'
      rw [List.flatMap_cons, hd] at h
      exact absurd (List.head_eq_of_cons_eq h).symm hne
  | cons c cs ih =>
    cases cs' with
    | nil =>
      obtain ⟨d, ds, hd, hne⟩ := escapeChar_cons c
      rw [List.flatMap_cons, hd] at h
      exact absurd (List.head_eq_of_cons_eq h) hne
    | cons c' cs' =>
      have hread := congrArg readChar h
      rw [List.flatMap_cons, List.flatMap_cons, List.append_assoc, List.append_assoc,
        readChar_escapeChar, readChar_escapeChar] at hread
      simp only [Option.some.injEq, Prod.mk.injEq] at hread
      obtain ⟨rfl, hrest⟩ := hread
      obtain ⟨rfl, rfl⟩ := ih cs' hrest
      exact ⟨rfl, rfl⟩

/-- A string literal determines the string and what follows it. -/
theorem quote_append_inj {s s' : String} {rest rest' : List Char}
    (h : quote s ++ rest = quote s' ++ rest') : s = s' ∧ rest = rest' := by
  simp only [quote, List.cons_append, List.append_assoc,
    List.cons.injEq, true_and] at h
  obtain ⟨hs, hrest⟩ := body_inj _ _ _ _ h
  exact ⟨String.toList_inj.mp hs, hrest⟩

/-! ## Values -/

/-- What may follow the text of a value: nothing that continues a number. -/
def Stops (rest : List Char) : Prop := ∀ c cs, rest = c :: cs → JsNumber.isNumChar c = false

private theorem toChars_append_inj {n n' : JsNumber} {rest rest' : List Char}
    (hr : Stops rest) (hr' : Stops rest') (h : n.toChars ++ rest = n'.toChars ++ rest') :
    n = n' ∧ rest = rest' := by
  have htake : ∀ (k : JsNumber) (r : List Char), Stops r →
      (k.toChars ++ r).takeWhile JsNumber.isNumChar = k.toChars := by
    intro k r hstop
    rw [List.takeWhile_append_of_pos k.toChars_isNumChar]
    cases r with
    | nil => simp
    | cons c cs =>
      have hc := hstop c cs rfl
      rw [List.takeWhile_cons_of_neg (by simp [hc]), List.append_nil]
  have heq : n.toChars = n'.toChars := by
    rw [← htake n rest hr, ← htake n' rest' hr', h]
  refine ⟨JsNumber.toChars_injective heq, ?_⟩
  rw [heq] at h
  exact List.append_cancel_left h

private theorem stops_items (as : List Json) (rest : List Char) :
    Stops (itemsChars as ++ rest) := by
  intro c cs h
  cases as with
  | nil =>
    rw [itemsChars, List.singleton_append] at h
    rw [← List.head_eq_of_cons_eq h]
    rfl
  | cons a as =>
    rw [itemsChars, List.cons_append] at h
    rw [← List.head_eq_of_cons_eq h]
    rfl

private theorem stops_members (ms : List (String × Json)) (rest : List Char) :
    Stops (membersChars ms ++ rest) := by
  intro c cs h
  cases ms with
  | nil =>
    rw [membersChars, List.singleton_append] at h
    rw [← List.head_eq_of_cons_eq h]
    rfl
  | cons m ms =>
    obtain ⟨k, a⟩ := m
    rw [membersChars, List.cons_append] at h
    rw [← List.head_eq_of_cons_eq h]
    rfl

/-- The items of an array, joined by commas. -/
private theorem append_itemsChars (as : List Json) (x : List Char) :
    x ++ itemsChars as = [','].intercalate (x :: as.map chars) ++ [']'] := by
  induction as generalizing x with
  | nil => simp [itemsChars]
  | cons a as ih =>
    rw [itemsChars, List.map_cons, List.intercalate_cons_cons, ih (chars a)]
    simp

theorem chars_arr (as : List Json) :
    chars (arr as) = '[' :: ([','].intercalate (as.map chars) ++ [']']) := by
  cases as with
  | nil => rfl
  | cons a as => rw [chars, append_itemsChars, List.map_cons]

/-- The members of an object, joined by commas. -/
private theorem append_membersChars (ms : List (String × Json)) (x : List Char) :
    x ++ membersChars ms =
      [','].intercalate (x :: ms.map fun m => quote m.1 ++ ':' :: chars m.2) ++ ['\x7d'] := by
  induction ms generalizing x with
  | nil => simp [membersChars]
  | cons m ms ih =>
    obtain ⟨k, a⟩ := m
    have hrest := ih (quote k ++ ':' :: chars a)
    rw [membersChars, List.map_cons, List.intercalate_cons_cons, List.append_assoc,
      List.append_assoc, ← hrest]
    simp

theorem chars_obj (ms : List (String × Json)) :
    chars (obj ms) = '\x7b' ::
      ([','].intercalate (ms.map fun m => quote m.1 ++ ':' :: chars m.2) ++ ['\x7d']) := by
  cases ms with
  | nil => rfl
  | cons m ms =>
    obtain ⟨k, a⟩ := m
    have hrest := append_membersChars ms (quote k ++ ':' :: chars a)
    rw [chars, List.map_cons, ← hrest]
    simp

/-- The kind of value a text starts, read off its first character. -/
private def charTag (c : Char) : Nat :=
  if JsNumber.isNumChar c then 3
  else match c with
    | 'n' => 0
    | 't' => 1
    | 'f' => 2
    | '"' => 4
    | '[' => 5
    | '\x7b' => 6
    | _ => 7

private def tag : Json → Nat
  | null => 0
  | bool true => 1
  | bool false => 2
  | num _ => 3
  | str _ => 4
  | arr _ => 5
  | obj _ => 6

private theorem chars_cons (a : Json) : ∃ c cs, chars a = c :: cs ∧ charTag c = tag a := by
  cases a with
  | null => exact ⟨_, _, by rw [chars], rfl⟩
  | bool b => cases b <;> exact ⟨_, _, by rw [chars], rfl⟩
  | num n =>
    obtain ⟨c, cs, hn, hc⟩ := n.toChars_cons
    exact ⟨c, cs, by rw [chars, hn], by simp [charTag, hc, tag]⟩
  | str s => exact ⟨_, _, by rw [chars, quote], rfl⟩
  | arr as => cases as <;> exact ⟨_, _, by rw [chars], rfl⟩
  | obj ms =>
    cases ms with
    | nil => exact ⟨_, _, by rw [chars], rfl⟩
    | cons m ms => exact ⟨_, _, by rw [chars], rfl⟩

private theorem tag_eq {a b : Json} {rest rest' : List Char}
    (h : chars a ++ rest = chars b ++ rest') : tag a = tag b := by
  obtain ⟨c, cs, ha, hc⟩ := chars_cons a
  obtain ⟨d, ds, hb, hd⟩ := chars_cons b
  rw [ha, hb] at h
  rw [← hc, ← hd, List.head_eq_of_cons_eq h]

/-- A closing bracket starts no value. -/
private theorem chars_ne_close (a : Json) (xs ys : List Char) :
    chars a ++ xs ≠ ']' :: ys := by
  intro h
  obtain ⟨c, cs, ha, hc⟩ := chars_cons a
  rw [ha] at h
  have hclose : tag a = charTag ']' := by rw [← hc, List.head_eq_of_cons_eq h]
  have hlt : tag a < 7 := by
    cases a with
    | bool b => cases b <;> exact Nat.le_of_ble_eq_true rfl
    | _ => exact Nat.le_of_ble_eq_true rfl
  rw [hclose] at hlt
  exact absurd hlt (by decide)

mutual

/-- The text of a value determines the value and what follows the text. -/
theorem chars_append_inj (a b : Json) (rest rest' : List Char) (hr : Stops rest)
    (hr' : Stops rest') (h : chars a ++ rest = chars b ++ rest') : a = b ∧ rest = rest' := by
  have htag := tag_eq h
  match a, b with
  | null, null | bool true, bool true | bool false, bool false =>
    exact ⟨rfl, List.append_cancel_left h⟩
  | num n, num n' =>
    rw [chars, chars] at h
    obtain ⟨rfl, rfl⟩ := toChars_append_inj hr hr' h
    exact ⟨rfl, rfl⟩
  | str s, str s' =>
    rw [chars, chars] at h
    obtain ⟨rfl, rfl⟩ := quote_append_inj h
    exact ⟨rfl, rfl⟩
  | arr as, arr bs =>
    match as, bs with
    | [], [] => exact ⟨rfl, List.append_cancel_left h⟩
    | [], b :: bs =>
      rw [chars, chars, List.cons_append, List.cons_append, List.cons_append,
        List.append_assoc] at h
      exact (chars_ne_close b _ _ (List.tail_eq_of_cons_eq h).symm).elim
    | a :: as, [] =>
      rw [chars, chars, List.cons_append, List.cons_append, List.append_assoc] at h
      exact (chars_ne_close a _ _ (List.tail_eq_of_cons_eq h)).elim
    | a :: as, b :: bs =>
      rw [chars, chars] at h
      have hitems := congrArg (',' :: ·) (List.tail_eq_of_cons_eq h)
      obtain ⟨heq, rfl⟩ := itemsChars_append_inj (a :: as) (b :: bs) rest rest' hitems
      exact ⟨congrArg Json.arr heq, rfl⟩
  | obj ms, obj ms' =>
    match ms, ms' with
    | [], [] => exact ⟨rfl, List.append_cancel_left h⟩
    | [], (k, b) :: ms' =>
      rw [chars, chars] at h
      exact absurd (List.head_eq_of_cons_eq (List.tail_eq_of_cons_eq h)) (by decide)
    | (k, a) :: ms, [] =>
      rw [chars, chars] at h
      exact absurd (List.head_eq_of_cons_eq (List.tail_eq_of_cons_eq h)) (by decide)
    | (k, a) :: ms, (k', b) :: ms' =>
      rw [chars, chars] at h
      have hmembers := congrArg (',' :: ·) (List.tail_eq_of_cons_eq h)
      obtain ⟨heq, rfl⟩ :=
        membersChars_append_inj ((k, a) :: ms) ((k', b) :: ms') rest rest' hmembers
      exact ⟨congrArg Json.obj heq, rfl⟩
termination_by sizeOf a

theorem itemsChars_append_inj (as bs : List Json) (rest rest' : List Char)
    (h : itemsChars as ++ rest = itemsChars bs ++ rest') : as = bs ∧ rest = rest' := by
  match as, bs with
  | [], [] => exact ⟨rfl, List.append_cancel_left h⟩
  | [], b :: bs =>
    rw [itemsChars, itemsChars] at h
    exact absurd (List.head_eq_of_cons_eq h) (by decide)
  | a :: as, [] =>
    rw [itemsChars, itemsChars] at h
    exact absurd (List.head_eq_of_cons_eq h) (by decide)
  | a :: as, b :: bs =>
    rw [itemsChars, itemsChars, List.cons_append, List.cons_append, List.append_assoc,
      List.append_assoc] at h
    obtain ⟨rfl, htail⟩ := chars_append_inj a b _ _ (stops_items as rest)
      (stops_items bs rest') (List.tail_eq_of_cons_eq h)
    obtain ⟨rfl, rfl⟩ := itemsChars_append_inj as bs rest rest' htail
    exact ⟨rfl, rfl⟩
termination_by sizeOf as

theorem membersChars_append_inj (ms ms' : List (String × Json)) (rest rest' : List Char)
    (h : membersChars ms ++ rest = membersChars ms' ++ rest') : ms = ms' ∧ rest = rest' := by
  match ms, ms' with
  | [], [] => exact ⟨rfl, List.append_cancel_left h⟩
  | [], (k, b) :: ms' =>
    rw [membersChars, membersChars] at h
    exact absurd (List.head_eq_of_cons_eq h) (by decide)
  | (k, a) :: ms, [] =>
    rw [membersChars, membersChars] at h
    exact absurd (List.head_eq_of_cons_eq h) (by decide)
  | (k, a) :: ms, (k', b) :: ms' =>
    rw [membersChars, membersChars, List.cons_append, List.cons_append, List.append_assoc,
      List.append_assoc] at h
    obtain ⟨rfl, hval⟩ := quote_append_inj (List.tail_eq_of_cons_eq h)
    rw [List.cons_append, List.cons_append, List.append_assoc, List.append_assoc] at hval
    obtain ⟨rfl, htail⟩ := chars_append_inj a b _ _ (stops_members ms rest)
      (stops_members ms' rest') (List.tail_eq_of_cons_eq hval)
    obtain ⟨rfl, rfl⟩ := membersChars_append_inj ms ms' rest rest' htail
    exact ⟨rfl, rfl⟩
termination_by sizeOf ms

end

/-- The printed form of a value determines it. -/
theorem stringify_injective {a b : Json} (h : stringify a = stringify b) : a = b := by
  have hchars : chars a ++ [] = chars b ++ [] := by
    rw [List.append_nil, List.append_nil]
    exact String.ofList_inj.mp h
  have hstop : Stops [] := fun _ _ h => by cases h
  exact (chars_append_inj a b [] [] hstop hstop hchars).1

end Json
