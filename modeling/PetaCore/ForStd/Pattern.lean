import Mathlib.Data.List.Basic

/-!
# Patterns with groups

Regular expressions with capture groups and back references, matched by backtracking: which match
is found depends on the order of the alternatives, and a repetition takes as much as it can. The
expressions are given by their structure, not by a source text.

- `matchAt`: the match at the beginning of a text
- `replaceAll`: every match replaced, from left to right
-/

/-- A pattern. -/
inductive Pattern where
  | empty
  | one (p : Char → Bool)
  | seq (a b : Pattern)
  | alt (a b : Pattern)
  | many (a : Pattern)
  | group (n : Nat) (a : Pattern)
  | back (n : Nat)
  | notAhead (a : Pattern)
  | finish

namespace Pattern

/-- What the groups hold, the latest first. -/
abbrev Groups := List (Nat × List Char)

/-- What a group holds; nothing when it takes no part in the match. -/
def Groups.get (g : Groups) (n : Nat) : List Char := (g.lookup n).getD []

/-- As many rounds as possible, and then the continuation; a round that consumes nothing fails. -/
def rounds {β : Type} (run : (Groups → List Char → Option β) → Groups → List Char → Option β)
    (k : Groups → List Char → Option β) : (fuel : Nat) → Groups → List Char → Option β
  | 0, g, cs => k g cs
  | fuel + 1, g, cs =>
    match run (fun g' cs' => if cs'.length < cs.length then rounds run k fuel g' cs' else none)
        g cs with
    | some r => some r
    | none => k g cs

/-- A pattern at the beginning of a text, and then the continuation on what is left. -/
def run : (a : Pattern) → {β : Type} → (Groups → List Char → Option β) → Groups → List Char →
    Option β
  | empty, _, k, g, cs => k g cs
  | one _, _, _, _, [] => none
  | one p, _, k, g, c :: cs => if p c then k g cs else none
  | seq a b, _, k, g, cs => a.run (b.run k) g cs
  | alt a b, _, k, g, cs =>
    match a.run k g cs with
    | some r => some r
    | none => b.run k g cs
  | many a, _, k, g, cs => rounds a.run k cs.length g cs
  | group n a, _, k, g, cs =>
    a.run (fun g' cs' => k ((n, cs.take (cs.length - cs'.length)) :: g') cs') g cs
  | back n, _, k, g, cs =>
    if g.get n <+: cs then k g (cs.drop (g.get n).length) else none
  | notAhead a, _, k, g, cs => if (a.run (fun g' _ => some g') g cs).isSome then none else k g cs
  | finish, _, k, g, cs => if cs = [] then k g cs else none

/-- The groups of the match at the beginning of a text, with what is left of the text. -/
def matchAt (a : Pattern) (cs : List Char) : Option (Groups × List Char) :=
  a.run (fun g rest => some (g, rest)) [] cs

/-- Every match replaced; the first characters may belong to a match already. The replacement is
computed from the groups and the match. -/
def replaceFrom (a : Pattern) (f : Groups → List Char → List Char) : (skip : Nat) → List Char →
    List Char
  | _ + 1, [] => []
  | 0, [] =>
    match a.matchAt [] with
    | some (g, _) => f g []
    | none => []
  | skip + 1, _ :: cs => replaceFrom a f skip cs
  | 0, c :: cs =>
    match a.matchAt (c :: cs) with
    | some (g, rest) =>
      let found := (c :: cs).take (cs.length + 1 - rest.length)
      match found.length with
      | 0 => f g [] ++ c :: replaceFrom a f 0 cs
      | skip + 1 => f g found ++ replaceFrom a f skip cs
    | none => c :: replaceFrom a f 0 cs

/-- `String.prototype.replace` with an expression that has the flag `g`. -/
def replaceAll (a : Pattern) (f : Groups → List Char → List Char) (text : List Char) :
    List Char := replaceFrom a f 0 text

/-! ## Building patterns -/

/-- `a+` -/
def some1 (a : Pattern) : Pattern := seq a (many a)

/-- `a?` -/
def opt (a : Pattern) : Pattern := alt a empty

/-- One of the given characters. -/
def oneOf (cs : List Char) : Pattern := one fun c => cs.contains c

/-- A character that is none of the given ones. -/
def noneOf (cs : List Char) : Pattern := one fun c => !cs.contains c

/-- A word of ASCII characters in lower case, ignoring case. Without the flag `u`, ignoring case
relates no other character to one of these. -/
def word (w : List Char) : Pattern :=
  w.foldr (fun c a => seq (one fun d => d.toLower == c) a) empty

/-- One alternative after the other. -/
def choice : List Pattern → Pattern
  | [] => one fun _ => false
  | [a] => a
  | a :: as => alt a (choice as)

/-- One pattern after the other. -/
def chain : List Pattern → Pattern
  | [] => empty
  | [a] => a
  | a :: as => seq a (chain as)

end Pattern
