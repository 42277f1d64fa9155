import Sluice.Text.Basic

/-!
# Cutting at separators

A text is cut where a separator stands outside quotes and brackets. A doubled bar is an
operator and no separator. Nothing is lost: the parts joined by the separator are the text.
-/
namespace Sluice.Pipeline

open Sluice.Text

def isOpening (c : Char) : Bool :=
  c == '(' || c == '[' || c == '\x7b'

def isClosing (c : Char) : Bool :=
  c == ')' || c == ']' || c == '\x7d'

/-- Puts characters in front of the first part. -/
def onFirst (cs : List Char) : List (List Char) → List (List Char)
  | [] => [cs]
  | part :: rest => (cs ++ part) :: rest

/-- The parts of a text, read with a number of brackets open and perhaps inside a quote. In
quotes a backslash takes the next character with it. -/
def partsFrom (sep : Char) (depth : Int) (quote : Option Char) :
    List Char → List (List Char)
  | [] => [[]]
  | [c] =>
      if quote.isNone ∧ !isQuote c ∧ !isOpening c ∧ !isClosing c ∧ c = sep ∧ depth ≤ 0 then [[], []]
      else [[c]]
  | c :: d :: rest =>
      match quote with
      | some q =>
          if c = '\\' then onFirst [c, d] (partsFrom sep depth quote rest)
          else onFirst [c] (partsFrom sep depth (if c = q then none else quote) (d :: rest))
      | none =>
          if isQuote c then onFirst [c] (partsFrom sep depth (some c) (d :: rest))
          else if isOpening c then onFirst [c] (partsFrom sep (depth + 1) none (d :: rest))
          else if isClosing c then onFirst [c] (partsFrom sep (depth - 1) none (d :: rest))
          else if sep = '|' ∧ c = '|' ∧ d = '|' then onFirst [c, d] (partsFrom sep depth none rest)
          else if c = sep ∧ depth ≤ 0 then [] :: partsFrom sep depth none (d :: rest)
          else onFirst [c] (partsFrom sep depth none (d :: rest))

/-- The parts between the separators at the top level of a text. -/
def parts (sep : Char) (cs : List Char) : List (List Char) :=
  partsFrom sep 0 none cs

/-- The text before the first separator at the top level, and the text after it. -/
def cutTop (sep : Char) (cs : List Char) : Option (List Char × List Char) :=
  match parts sep cs with
  | before :: part :: rest => some (before, [sep].intercalate (part :: rest))
  | _ => none

/-- The parts of an argument list without blanks at their ends; empty ones are dropped. -/
def arguments (cs : List Char) : List (List Char) :=
  ((parts ',' cs).map trim).filter fun part => !part.isEmpty

/-- The text has a bar that is a separator. -/
def isPipeline (cs : List Char) : Bool :=
  (parts '|' cs).length > 1

/-- The texts of the stages. -/
def stages (cs : List Char) : List (List Char) :=
  (parts '|' cs).map trim

/-- Parentheses outside quotes are matched, and no quote is left open. -/
def balancedFrom (depth : Nat) (quote : Option Char) : List Char → Bool
  | [] => depth == 0 && quote.isNone
  | c :: rest =>
      match quote with
      | some q =>
          if c = '\\' then
            match rest with
            | [] => false
            | _ :: rest => balancedFrom depth quote rest
          else balancedFrom depth (if c = q then none else quote) rest
      | none =>
          if isQuote c then balancedFrom depth (some c) rest
          else if c = '(' then balancedFrom (depth + 1) none rest
          else if c = ')' then
            match depth with
            | 0 => false
            | depth + 1 => balancedFrom depth none rest
          else balancedFrom depth none rest

def balanced (cs : List Char) : Bool :=
  balancedFrom 0 none cs

end Sluice.Pipeline
