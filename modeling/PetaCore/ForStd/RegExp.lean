import PetaCore.ForStd.Glob

/-!
# Regular expressions

Regular expressions without flags, of literals, `.`, `*` and the assertions `^` and `$`: how the
source text is read, and what `test` finds. Texts are lists of code units, as such an expression
sees them. The source of an expression that uses anything else is not read.

- `test`: whether a source finds a match in a text
- `test_source`: the expression that stands for a glob pattern between the two assertions
-/

namespace RegExp

/-- What one code unit can be matched by. -/
inductive Atom where
  | char (c : Nat)
  | any
deriving DecidableEq

/-- A term of an alternative. -/
inductive Term where
  | start
  | finish
  | one (a : Atom)
  | many (a : Atom)
deriving DecidableEq

/-- A token of the source. -/
inductive Token where
  | char (c : Nat)
  | any
  | start
  | finish
  | star
deriving DecidableEq

/-- The line terminators: line feed, carriage return, and the two separators. -/
def isLineTerminator (c : Nat) : Bool := [0x0A, 0x0D, 0x2028, 0x2029].contains c

/-- The syntax characters. -/
def syntaxCharacters : List Nat := "^$\\.*+?()[]\x7b\x7d|".toList.map Char.toNat

/-! ## Source text -/

/-- The token of a code unit that is not escaped. -/
def token (c : Nat) : Option Token :=
  if c = '^'.toNat then some .start
  else if c = '$'.toNat then some .finish
  else if c = '.'.toNat then some .any
  else if c = '*'.toNat then some .star
  else if syntaxCharacters.contains c then none
  else some (.char c)

/-- The tokens of a source; only syntax characters are escaped. -/
def tokens : List Nat → Option (List Token)
  | [] => some []
  | [c] => (token c).map fun t => [t]
  | c :: d :: s =>
    if c = '\\'.toNat then
      if syntaxCharacters.contains d then (tokens s).map (.char d :: ·) else none
    else (token c).bind fun t => (tokens (d :: s)).map (t :: ·)

/-- The terms of the tokens. -/
def terms : List Token → Option (List Term)
  | [] => some []
  | .char c :: .star :: ts => (terms ts).map (.many (.char c) :: ·)
  | .any :: .star :: ts => (terms ts).map (.many .any :: ·)
  | .char c :: ts => (terms ts).map (.one (.char c) :: ·)
  | .any :: ts => (terms ts).map (.one .any :: ·)
  | .start :: ts => (terms ts).map (.start :: ·)
  | .finish :: ts => (terms ts).map (.finish :: ·)
  | .star :: _ => none

/-- Read a source. -/
def parse (source : List Nat) : Option (List Term) := (tokens source).bind terms

/-! ## Matching -/

/-- Whether an atom matches a code unit; `.` is no line terminator. -/
def Atom.accepts : Atom → Nat → Bool
  | .char c, d => c == d
  | .any, d => !isLineTerminator d

/-- An atom any number of times, and then the continuation. -/
def manyOf (a : Atom) (k : Nat → List Nat → Bool) : Nat → List Nat → Bool
  | i, [] => k i []
  | i, c :: s => a.accepts c && manyOf a k (i + 1) s || k i (c :: s)

/-- A term at a position of the text, with what is left of it, and then the continuation. -/
def Term.run (k : Nat → List Nat → Bool) : Term → Nat → List Nat → Bool
  | .start, i, s => i == 0 && k i s
  | .finish, i, s => s.isEmpty && k i s
  | .one _, _, [] => false
  | .one a, i, c :: s => a.accepts c && k (i + 1) s
  | .many a, i, s => manyOf a k i s

/-- All terms in turn. -/
def run : List Term → Nat → List Nat → Bool
  | [] => fun _ _ => true
  | t :: ts => t.run (run ts)

/-- Try each position from one on. -/
def testFrom (ts : List Term) : Nat → List Nat → Bool
  | i, [] => run ts i []
  | i, c :: s => run ts i (c :: s) || testFrom ts (i + 1) s

/-- `new RegExp(source).test(s)`; `none` when the source is not read. -/
def test (source s : List Nat) : Option Bool := (parse source).map fun ts => testFrom ts 0 s

/-! ## Anchored patterns -/

open Glob

/-- The source of a symbol. -/
def source : Symbol Nat → List Nat
  | .literal c => if syntaxCharacters.contains c then ['\\'.toNat, c] else [c]
  | .one => ['.'.toNat]
  | .many => ['.'.toNat, '*'.toNat]

/-- The tokens of a symbol. -/
def symbolTokens : Symbol Nat → List Token
  | .literal c => [.char c]
  | .one => [.any]
  | .many => [.any, .star]

/-- The term of a symbol. -/
def symbolTerm : Symbol Nat → Term
  | .literal c => .one (.char c)
  | .one => .one .any
  | .many => .many .any

theorem tokens_cons {c : Nat} {t : Token} (h : token c = some t) (s : List Nat) :
    tokens (c :: s) = (tokens s).map (t :: ·) := by
  cases s with
  | nil => simp [tokens, h]
  | cons d s =>
    have hc : c ≠ '\\'.toNat := by
      intro hc
      rw [hc] at h
      cases h
    rw [tokens, if_neg hc, h, Option.bind_some]

theorem tokens_escape {d : Nat} (h : syntaxCharacters.contains d = true) (s : List Nat) :
    tokens ('\\'.toNat :: d :: s) = (tokens s).map (.char d :: ·) := by
  rw [tokens, if_pos rfl, if_pos h]

/-- A code unit that is no syntax character stands for itself. -/
theorem token_of_ordinary {c : Nat} (h : syntaxCharacters.contains c = false) :
    token c = some (.char c) := by
  have hne : ∀ d ∈ syntaxCharacters, c ≠ d := by
    intro d hd hcd
    rw [hcd, List.contains_iff_mem.mpr hd] at h
    cases h
  rw [token, if_neg (hne _ (by decide)), if_neg (hne _ (by decide)), if_neg (hne _ (by decide)),
    if_neg (hne _ (by decide)), h]
  rfl

theorem tokens_source (x : Symbol Nat) (s : List Nat) :
    tokens (source x ++ s) = (tokens s).map (symbolTokens x ++ ·) := by
  cases x with
  | literal c =>
    cases hc : syntaxCharacters.contains c with
    | true =>
      rw [source, if_pos hc]
      exact tokens_escape hc s
    | false =>
      rw [source, if_neg (by rw [hc]; exact Bool.false_ne_true)]
      exact tokens_cons (token_of_ordinary hc) s
  | one => exact tokens_cons rfl s
  | many =>
    show tokens ('.'.toNat :: '*'.toNat :: s) = _
    rw [tokens_cons (t := .any) rfl, tokens_cons (t := .star) rfl, Option.map_map]
    rfl

theorem tokens_flatMap_source (p : List (Symbol Nat)) (s : List Nat) :
    tokens (p.flatMap source ++ s) = (tokens s).map (p.flatMap symbolTokens ++ ·) := by
  induction p with
  | nil => simp
  | cons x p ih =>
    rw [List.flatMap_cons, List.append_assoc, tokens_source, ih, Option.map_map]
    congr 1
    funext ts
    simp

/-- Nothing that follows a symbol is read as its quantifier. -/
theorem terms_symbolTokens (x : Symbol Nat) {ts : List Token} (h : ts.head? ≠ some .star) :
    terms (symbolTokens x ++ ts) = (terms ts).map (symbolTerm x :: ·) := by
  cases x with
  | many => rfl
  | literal _ | one =>
    cases ts with
    | nil => rfl
    | cons t ts =>
      cases t with
      | star => exact absurd rfl h
      | _ => rfl

theorem head?_symbolTokens (p : List (Symbol Nat)) :
    (p.flatMap symbolTokens ++ [Token.finish]).head? ≠ some .star := by
  cases p with
  | nil => simp
  | cons x p => cases x <;> simp [symbolTokens]

theorem terms_flatMap_symbolTokens (p : List (Symbol Nat)) :
    terms (p.flatMap symbolTokens ++ [.finish]) = some (p.map symbolTerm ++ [.finish]) := by
  induction p with
  | nil => rfl
  | cons x p ih =>
    rw [List.flatMap_cons, List.append_assoc, terms_symbolTokens x (head?_symbolTokens p), ih,
      Option.map_some, List.map_cons, List.cons_append]

theorem parse_source (p : List (Symbol Nat)) :
    parse ('^'.toNat :: p.flatMap source ++ ['$'.toNat]) =
      some (.start :: p.map symbolTerm ++ [.finish]) := by
  have htokens : tokens ('^'.toNat :: p.flatMap source ++ ['$'.toNat]) =
      some (.start :: (p.flatMap symbolTokens ++ [.finish])) := by
    rw [List.cons_append, tokens_cons (t := .start) rfl, tokens_flatMap_source]
    rfl
  rw [parse, htokens, Option.bind_some, terms, terms_flatMap_symbolTokens]
  rfl

/-- What the wildcards of an expression stand for. -/
def IsAny (c : Nat) : Prop := isLineTerminator c = false

theorem manyOf_any {k : Nat → List Nat → Bool} {p : List (Symbol Nat)}
    (h : ∀ i s, k i s = true ↔ Matches IsAny p s) (i : Nat) (s : List Nat) :
    manyOf .any k i s = true ↔ Matches IsAny (.many :: p) s := by
  induction s generalizing i with
  | nil => rw [manyOf, matches_many_nil_iff, h]
  | cons c s ih =>
    rw [manyOf, matches_many_cons_iff, Bool.or_eq_true, Bool.and_eq_true, ih, h]
    simp [Atom.accepts, IsAny]

theorem run_symbols (p : List (Symbol Nat)) (i : Nat) (s : List Nat) :
    run (p.map symbolTerm ++ [.finish]) i s = true ↔ Matches IsAny p s := by
  induction p generalizing i s with
  | nil => simp [run, Term.run]
  | cons x p ih =>
    show Term.run (run (p.map symbolTerm ++ [.finish])) (symbolTerm x) i s = true ↔ _
    cases x with
    | literal c =>
      cases s with
      | nil => simp [symbolTerm, Term.run, matches_literal_iff]
      | cons d s =>
        simp only [symbolTerm, Term.run, Atom.accepts, Bool.and_eq_true, beq_iff_eq, ih,
          matches_literal_iff, List.cons.injEq]
        grind
    | one =>
      cases s with
      | nil => simp [symbolTerm, Term.run, matches_one_iff]
      | cons d s => simp [symbolTerm, Term.run, Atom.accepts, ih, matches_one_iff, IsAny]
    | many => exact manyOf_any ih i s

/-- An anchored expression matches from the beginning of the text or not at all. -/
theorem testFrom_start (ts : List Term) (s : List Nat) :
    testFrom (.start :: ts) 0 s = run ts 0 s := by
  have hlater : ∀ (s : List Nat) (i : Nat), testFrom (.start :: ts) (i + 1) s = false := by
    intro s
    induction s with
    | nil => intro i; rfl
    | cons c s ih =>
      intro i
      rw [testFrom, ih (i + 1)]
      rfl
  cases s with
  | nil => simp [testFrom, run, Term.run]
  | cons c s => simp [testFrom, run, Term.run, hlater s 0]

/-- The source of a pattern between the two assertions finds what matches the pattern. -/
theorem test_source (p : List (Symbol Nat)) (s : List Nat) :
    ∃ b, test ('^'.toNat :: p.flatMap source ++ ['$'.toNat]) s = some b ∧
      (b = true ↔ Matches IsAny p s) := by
  refine ⟨run (p.map symbolTerm ++ [.finish]) 0 s, ?_, run_symbols p 0 s⟩
  rw [test, parse_source, Option.map_some, List.cons_append, testFrom_start]

end RegExp
