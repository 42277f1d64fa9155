import Sluice.Decimal.Digits
import Sluice.Text.Basic

/-!
# Writing decimals

A layout fixes how the chosen digits are written: which exponents are positional, whether
an integral number keeps its `.0`, and which way a tie between two decimals goes.
-/
namespace Sluice.Decimal

open Sluice.Text

/-- The decisions of a number format. -/
structure Layout where
  tie : Tie
  /-- An integral number ends in `.0`. -/
  pointZero : Bool
  /-- Numbers are written positionally if the exponent of the leading digit is at least
  the first bound and below the second, and always if there are no bounds. -/
  positional : Option (Int × Int)
  /-- A positive exponent carries its sign. -/
  plusSign : Bool

/-- The exponent of the leading digit. -/
def Dec.leading (d : Dec) : Int :=
  d.exp + (natDigits d.digits).length - 1

/-- The digits with the point in its place. -/
def Dec.plain (d : Dec) (pointZero : Bool) : List Char :=
  let ds := natDigits d.digits
  if d.exp ≥ 0 then
    ds ++ List.replicate d.exp.toNat '0' ++ (if pointZero then ['.', '0'] else [])
  else
    let places := (-d.exp).toNat
    if ds.length > places then
      ds.take (ds.length - places) ++ '.' :: ds.drop (ds.length - places)
    else
      '0' :: '.' :: (List.replicate (places - ds.length) '0' ++ ds)

/-- One digit before the point, and an exponent. -/
def Dec.scientific (d : Dec) (plusSign : Bool) : List Char :=
  let mantissa := match natDigits d.digits with
    | [] => []
    | [c] => [c]
    | c :: rest => c :: '.' :: rest
  let e := d.leading
  let sign := if e < 0 then ['-'] else if plusSign then ['+'] else []
  mantissa ++ 'e' :: (sign ++ natDigits e.natAbs)

/-- The text of a decimal. -/
def Layout.unsigned (l : Layout) (d : Dec) : List Char :=
  match l.positional with
  | none => d.plain l.pointZero
  | some (lo, hi) =>
      if d.digits = 0 ∨ (lo ≤ d.leading ∧ d.leading < hi) then d.plain l.pointZero
      else d.scientific l.plusSign

/-- The text of a finite number. -/
def Layout.finite (l : Layout) (negative : Bool) (x : Magnitude) : List Char :=
  let body := l.unsigned (x.shortest l.tie)
  if negative then '-' :: body else body

end Sluice.Decimal
