import Sluice.Decimal.Layout

/-!
# JSON documents

A document as it is written: numbers keep the difference between an integer and a
floating-point literal, and members keep their order. The written form has no blanks.
-/
namespace Sluice

/-- A JSON document. -/
inductive Json where
  | null
  | bool (b : Bool)
  | int (n : Int)
  | float (x : Float)
  | string (s : String)
  | array (items : List Json)
  | object (members : List (String × Json))

instance : Inhabited Json := ⟨.null⟩

namespace Json

open Sluice.Text Sluice.Decimal

/-- Floating-point numbers are positional from `0.00001` up to sixteen digits before the
point, and have an exponent with its sign beyond. -/
def floatLayout : Layout where
  tie := .toEven
  pointZero := true
  positional := some (-5, 16)
  plusSign := true

/-- The text of a floating-point number. JSON has no text for the ones that are not
finite: they are null. -/
def floatText (x : Float) : List Char :=
  match parts x with
  | .finite negative size => floatLayout.finite negative size
  | _ => ['n', 'u', 'l', 'l']

/-- A digit of a `\u` escape. -/
def hexDigit (n : Nat) : Char :=
  if n < 10 then Char.ofNat ('0'.toNat + n) else Char.ofNat ('a'.toNat + (n - 10))

/-- A character inside a string. Quotes, backslashes and the controls below the blank are
escaped, nothing else is. -/
def escape (c : Char) : List Char :=
  match c with
  | '"' => ['\\', '"']
  | '\\' => ['\\', '\\']
  | '\n' => ['\\', 'n']
  | '\r' => ['\\', 'r']
  | '\t' => ['\\', 't']
  | c =>
      if c.toNat = 8 then ['\\', 'b']
      else if c.toNat = 12 then ['\\', 'f']
      else if c.toNat < 32 then
        ['\\', 'u', '0', '0', hexDigit (c.toNat / 16), hexDigit (c.toNat % 16)]
      else [c]

/-- A string between its quotes. -/
def quote (s : String) : List Char :=
  '"' :: (s.toList.flatMap escape ++ ['"'])

mutual

/-- The characters of a document. -/
def chars : Json → List Char
  | null => ['n', 'u', 'l', 'l']
  | bool true => ['t', 'r', 'u', 'e']
  | bool false => ['f', 'a', 'l', 's', 'e']
  | int n => intDigits n
  | float x => floatText x
  | string s => quote s
  | array [] => ['[', ']']
  | array (v :: rest) => '[' :: (v.chars ++ itemsChars rest)
  | object [] => ['\x7b', '\x7d']
  | object ((k, v) :: rest) =>
      '\x7b' :: (quote k ++ ':' :: (v.chars ++ membersChars rest))

/-- The items after the first one, and the closing bracket. -/
def itemsChars : List Json → List Char
  | [] => [']']
  | v :: rest => ',' :: (v.chars ++ itemsChars rest)

/-- The members after the first one, and the closing brace. -/
def membersChars : List (String × Json) → List Char
  | [] => ['\x7d']
  | (k, v) :: rest => ',' :: (quote k ++ ':' :: (v.chars ++ membersChars rest))

end

/-- The text of a document. -/
def render (j : Json) : String :=
  String.ofList j.chars

end Json

end Sluice
