import Sluice.Text.Basic
import Sluice.Text.Digit

/-!
# Refused shapes

Before a pattern is read it is searched for three shapes that are refused whatever they
mean: the opening of a look-ahead, two quantifiers in a row, and a repetition without a
lower bound. A character class counts as one character in this.
-/
namespace Sluice.Pattern

open Sluice.Text

/-- The pattern with an `x` in place of each bracketed class. A bracket right after the
opening one, or after its caret, is a member. -/
def classesAsLetters (depth : Nat) : List Char → List Char
  | [] => []
  | '\\' :: c :: rest =>
      if depth = 0 then '\\' :: c :: classesAsLetters depth rest else classesAsLetters depth rest
  | '[' :: '^' :: ']' :: rest => opened depth (classesAsLetters (depth + 1) rest)
  | '[' :: '^' :: rest => opened depth (classesAsLetters (depth + 1) rest)
  | '[' :: ']' :: rest => opened depth (classesAsLetters (depth + 1) rest)
  | '[' :: rest => opened depth (classesAsLetters (depth + 1) rest)
  | c :: rest =>
      match depth with
      | 0 => c :: classesAsLetters 0 rest
      | inner + 1 => if c = ']' then classesAsLetters inner rest else classesAsLetters (inner + 1) rest
where
  opened (depth : Nat) (rest : List Char) : List Char :=
    if depth = 0 then 'x' :: rest else rest

/-- An unbounded quantifier. -/
def isQuantifier (c : Char) : Bool :=
  c == '*' || c == '+'

/-- A quantifier with no backslash before it, and another one after it or after blanks. -/
def hasStackedFrom (before : Option Char) : List Char → Bool
  | [] => false
  | c :: rest =>
      (before != some '\\' && isQuantifier c && ((trimStart rest).head?.any isQuantifier))
        || hasStackedFrom (some c) rest

/-- Braces with a comma and nothing before it. -/
def startsUnbounded : List Char → Bool
  | '\x7b' :: rest =>
      match trimStart rest with
      | ',' :: rest => (trimStart ((trimStart rest).dropWhile isDecimal)).head? == some '\x7d'
      | _ => false
  | _ => false

def hasUnbounded : List Char → Bool
  | [] => false
  | c :: rest => startsUnbounded (c :: rest) || hasUnbounded rest

/-- The pattern has one of the refused shapes. -/
def isRefused (pattern : List Char) : Bool :=
  let shape := classesAsLetters 0 pattern
  occursIn ['(', '?', '='] shape || hasStackedFrom none shape || hasUnbounded shape

end Sluice.Pattern
