import Sluice.Text.Basic

/-!
# Reading decimals

A numeral is digits with at most one point, at least one digit in all, and an optional
exponent. Its value is the nearest `Float`.
-/
namespace Sluice.Decimal

open Sluice.Text

/-- A numeral taken apart: the digits before and after the point, and the exponent. -/
structure Numeral where
  whole : List Char
  fraction : List Char
  exponent : Int
  deriving DecidableEq

/-- The exponent of a numeral, which ends the text: nothing, or `e` and an integer. -/
def readExponent : List Char → Option Int
  | [] => some 0
  | c :: rest => if c = 'e' ∨ c = 'E' then readInt rest else none

/-- Reads an unsigned numeral that takes up the whole text. -/
def readNumeral (cs : List Char) : Option Numeral :=
  let whole := cs.takeWhile isAsciiDigit
  let (fraction, rest) := match cs.dropWhile isAsciiDigit with
    | '.' :: rest => (rest.takeWhile isAsciiDigit, rest.dropWhile isAsciiDigit)
    | rest => ([], rest)
  if whole.isEmpty && fraction.isEmpty then none
  else (readExponent rest).map fun e => ⟨whole, fraction, e⟩

/-- The value of `digits * 10 ^ e`. The bounds keep the powers small: past them the value
is over every `Float`, or nearer to zero than to the least one. -/
def nearest (digits : Nat) (e : Int) : Float :=
  let order := (natDigits digits).length + e
  if digits = 0 ∨ order < -330 then 0
  else if order > 310 then 1 / 0
  else Float.ofScientific digits (e < 0) e.natAbs

/-- The value of a numeral. -/
def Numeral.value (n : Numeral) : Float :=
  nearest (digitsValue (n.whole ++ n.fraction)) (n.exponent - n.fraction.length)

/-- Reads a numeral with an optional sign that takes up the whole text. -/
def readFloat (cs : List Char) : Option Float :=
  let (negative, body) := signed cs
  (readNumeral body).map fun n => if negative then -n.value else n.value

end Sluice.Decimal
