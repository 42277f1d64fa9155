import Sluice.Value.Coercion
import Sluice.Text.Printable

/-!
# Values for the record

The saved form of a value writes every number as floating-point. The described form is for
people: it names the kind of everything.
-/
namespace Sluice

open Sluice.Text Sluice.Decimal

namespace Value

mutual

/-- The saved form of a value. -/
def save : Value → Json
  | .null | .missing => .null
  | .bool b => .bool b
  | .number x => .float x
  | .string s => .string s
  | .array items => .array (saveItems items)
  | .object entries => .object (saveEntries entries)

def saveItems : List Value → List Json
  | [] => []
  | v :: rest => v.save :: saveItems rest

def saveEntries : List (String × Value) → List (String × Json)
  | [] => []
  | (k, v) :: rest => (k, v.save) :: saveEntries rest

end

end Value

namespace Description

/-- Numbers are positional from `0.0001` up to sixteen digits before the point. -/
def floatLayout : Layout where
  tie := .upward
  pointZero := true
  positional := some (-4, 16)
  plusSign := false

/-- A number. -/
def float (x : Float) : List Char :=
  match parts x with
  | .nan => "NaN".toList
  | .infinite negative => if negative then "-inf".toList else "inf".toList
  | .finite negative size => floatLayout.finite negative size

/-- A code in hexadecimal digits and braces. -/
def code (c : Char) : List Char :=
  '\\' :: 'u' :: '\x7b' :: (Nat.toDigits 16 c.toNat ++ ['\x7d'])

/-- A character of a text. -/
def char (c : Char) : List Char :=
  match c with
  | '"' => ['\\', '"']
  | '\\' => ['\\', '\\']
  | '\t' => ['\\', 't']
  | '\r' => ['\\', 'r']
  | '\n' => ['\\', 'n']
  | '\x00' => ['\\', '0']
  | c => if isPrintable c then [c] else code c

/-- A text between its quotes. -/
def string (s : String) : List Char :=
  '"' :: (s.toList.flatMap char ++ ['"'])

/-- Things between two delimiters, with commas and blanks between them. -/
def listed (opening closing : Char) (things : List (List Char)) : List Char :=
  opening :: ([',', ' '].intercalate things ++ [closing])

/-- A kind and what is of it. -/
def tagged (kind : String) (body : List Char) : List Char :=
  kind.toList ++ '(' :: (body ++ [')'])

mutual

/-- A value. -/
def value : Value → List Char
  | .null => "Null".toList
  | .missing => "Missing".toList
  | .bool b => tagged "Bool" (if b then "true".toList else "false".toList)
  | .number x => tagged "Number" (float x)
  | .string s => tagged "String" (string s)
  | .array items => tagged "Array" (listed '[' ']' (itemTexts items))
  | .object members => tagged "Object" (listed '\x7b' '\x7d' (entries members))

def itemTexts : List Value → List (List Char)
  | [] => []
  | v :: rest => value v :: itemTexts rest

/-- The entries of a table. -/
def entries : List (String × Value) → List (List Char)
  | [] => []
  | (k, v) :: rest => (string k ++ ':' :: ' ' :: value v) :: entries rest

end

/-- A table. -/
def table (members : Keyed Value) : List Char :=
  listed '\x7b' '\x7d' (entries members)

end Description

end Sluice
