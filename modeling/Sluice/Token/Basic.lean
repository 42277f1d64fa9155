import Sluice.Text.Basic
import Sluice.Text.Word

/-!
# Tokens and their rules

A token has a kind, its text, and the byte at which it starts. Each rule gives the length
of the longest start of a text that it matches. The rules are tried in a fixed order:
templates before strings, so that a quoted template is no string, and paths before
operators.
-/
namespace Sluice

/-- The kinds of tokens. -/
inductive Token.Kind where
  | quotedTemplate
  | singleQuotedTemplate
  | bareTemplate
  | path
  | operator
  | identifier
  | string
  | number
  | leftParen
  | rightParen
  | comma
  deriving DecidableEq, Repr

/-- A token and the byte at which it starts. -/
structure Token where
  kind : Token.Kind
  text : String
  position : Nat
  deriving DecidableEq, Repr

namespace Token

open Sluice.Text

/-- The length of the run of characters with a property at the start of a text. -/
def runLength (p : Char → Bool) (cs : List Char) : Nat :=
  (cs.takeWhile p).length

/-- A run that is not empty. -/
def someRun (p : Char → Bool) (cs : List Char) : Option Nat :=
  match runLength p cs with
  | 0 => none
  | n + 1 => some (n + 1)

/-- Two braces, a body without closing braces, and two closing braces. -/
def templateLength : List Char → Option Nat
  | '\x7b' :: '\x7b' :: rest =>
      let body := runLength (· != '\x7d') rest
      match rest.drop body with
      | '\x7d' :: '\x7d' :: _ => some (body + 4)
      | _ => none
  | _ => none

/-- A template between two quotes. -/
def quotedTemplateLength (q : Char) : List Char → Option Nat
  | [] => none
  | c :: rest =>
      if c = q then
        match templateLength rest with
        | some n => if rest[n]? = some q then some (n + 2) else none
        | none => none
      else none

/-- The inside of a bracket segment and its closing bracket: a quoted text, or a text
without quotes. -/
def bracketLength (cs : List Char) : Option Nat :=
  match cs with
  | [] => none
  | c :: rest =>
      if isQuote c then
        let body := runLength (· != c) rest
        match rest.drop body with
        | _ :: ']' :: _ => some (body + 3)
        | _ => none
      else
        let body := runLength (fun d => d != ']' && !isQuote d) cs
        if cs[body]? = some ']' then some (body + 1) else none

/-- One segment of a path: `.*`, a word with or without a point before it, or brackets. -/
def segmentLength : List Char → Option Nat
  | '.' :: '*' :: _ => some 2
  | '.' :: rest => (someRun isWord rest).map (· + 1)
  | '[' :: rest => (bracketLength rest).map (· + 1)
  | cs => someRun isWord cs

/-- As many segments as there are at the start of a text. -/
def segmentsLength (cs : List Char) : Nat :=
  match cs with
  | [] => 0
  | c :: rest =>
      match segmentLength (c :: rest) with
      | some (n + 1) => n + 1 + segmentsLength (rest.drop n)
      | _ => 0
termination_by cs.length
decreasing_by simp only [List.length_drop, List.length_cons]; omega

/-- A dollar sign and segments. -/
def pathLength : List Char → Option Nat
  | '$' :: rest => some (segmentsLength rest + 1)
  | _ => none

/-- An operator of two characters, or else of one. -/
def operatorLength : List Char → Option Nat
  | '=' :: '=' :: _ => some 2
  | '!' :: '=' :: _ => some 2
  | '>' :: '=' :: _ => some 2
  | '<' :: '=' :: _ => some 2
  | '&' :: '&' :: _ => some 2
  | '|' :: '|' :: _ => some 2
  | c :: _ => if "<>+-*/%!".toList.contains c then some 1 else none
  | [] => none

/-- A letter of ASCII or an underscore. -/
def isNameStart (c : Char) : Bool :=
  ('a' ≤ c && c ≤ 'z') || ('A' ≤ c && c ≤ 'Z') || c == '_'

/-- An ASCII letter or an underscore, and word characters. -/
def identifierLength : List Char → Option Nat
  | c :: rest => if isNameStart c then some (runLength isWord rest + 1) else none
  | [] => none

/-- The rest of a string up to its closing quote. A backslash takes the next character with
it, which may not be a line feed. -/
def stringTail (q : Char) : List Char → Option Nat
  | [] => none
  | [c] => if c = q then some 1 else none
  | c :: d :: rest =>
      if c = q then some 1
      else if c = '\\' then
        if d = '\n' then none else (stringTail q rest).map (· + 2)
      else (stringTail q (d :: rest)).map (· + 1)

/-- A text between two equal quotes. -/
def stringLength : List Char → Option Nat
  | c :: rest => if isQuote c then (stringTail c rest).map (· + 1) else none
  | [] => none

/-- A point and digits, or nothing. -/
def fractionLength : List Char → Nat
  | '.' :: rest => match someRun isDecimal rest with
    | some n => n + 1
    | none => 0
  | _ => 0

/-- An `e`, a sign that may be absent, and digits, or nothing. -/
def exponentLength : List Char → Nat
  | c :: rest =>
      if c = 'e' ∨ c = 'E' then
        match rest with
        | s :: rest' =>
            if s = '+' ∨ s = '-' then
              match someRun isDecimal rest' with
              | some n => n + 2
              | none => 0
            else match someRun isDecimal (s :: rest') with
              | some n => n + 1
              | none => 0
        | [] => 0
      else 0
  | [] => 0

/-- Digits of any script, with a fraction and an exponent where there are such. -/
def numberLength (cs : List Char) : Option Nat :=
  match someRun isDecimal cs with
  | none => none
  | some whole =>
      let fraction := fractionLength (cs.drop whole)
      some (whole + fraction + exponentLength (cs.drop (whole + fraction)))

/-- A given character alone. -/
def charLength (c : Char) : List Char → Option Nat
  | d :: _ => if d = c then some 1 else none
  | [] => none

/-- The rules in their order. -/
def rules : List (Kind × (List Char → Option Nat)) :=
  [(.quotedTemplate, quotedTemplateLength '"'),
   (.singleQuotedTemplate, quotedTemplateLength '\''),
   (.bareTemplate, templateLength),
   (.path, pathLength),
   (.operator, operatorLength),
   (.identifier, identifierLength),
   (.string, stringLength),
   (.number, numberLength),
   (.leftParen, charLength '('),
   (.rightParen, charLength ')'),
   (.comma, charLength ',')]

/-- The kind and the length of the token at the start of a text, by the first rule that
matches. -/
def first? (cs : List Char) : Option (Kind × Nat) :=
  rules.findSome? fun (kind, length) => (length cs).map fun n => (kind, n)

/-- The whole text is one path. -/
def isPath (cs : List Char) : Bool :=
  pathLength cs == some cs.length

end Token

end Sluice
