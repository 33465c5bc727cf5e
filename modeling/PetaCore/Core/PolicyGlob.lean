import Mathlib.Data.List.Infix
import PetaCore.ForStd.CodePoints
import PetaCore.ForStd.RegExp
import PetaCore.Core.PolicyDsl

/-!
# PolicyDslEvaluator.matchGlob

A glob is compiled, character by character, to the source of a regular expression, and the value is
tested with it. Strings are lists of UTF-16 code units here.
-/

namespace PetaCore

/-- `'\\^$+?.()|{}[]'` -/
def escapedCharacters : List Nat := "\\^$+?.()|\x7b\x7d[]".toList.map Char.toNat

/-- What is appended to `regexPattern` for a character. -/
def globSource (char : List Nat) : List Nat :=
  if char = ['*'.toNat] then ['.'.toNat, '*'.toNat]
  else if char = ['?'.toNat] then ['.'.toNat]
  else if char <:+: escapedCharacters then '\\'.toNat :: char
  else char

/-- `regexPattern` -/
def regexPattern (pattern : List Nat) : List Nat :=
  '^'.toNat :: (CodePoints.split pattern).flatMap globSource ++ ['$'.toNat]

/-- `matchGlob`; `none` when the source of the expression is not read. -/
def matchGlob (pattern value : List Nat) : Option Bool :=
  if 512 < pattern.length then some false else RegExp.test (regexPattern pattern) value

end PetaCore
