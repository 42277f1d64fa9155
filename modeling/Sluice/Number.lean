import Sluice.Decimal.Layout
import Sluice.Decimal.Reading
import Sluice.Number.Basic
import Sluice.Text.Alphabetic
import Sluice.Text.Blank

/-!
# What numbers stand for

This module writes and reads the text of numbers, rounds them to integers, and orders them. The
remainder and all roundings are exact and computed over the parts of a number. What does not see
the sign of not-a-number is said of `Float`.
-/
namespace Sluice.Number

open Sluice.Text Sluice.Decimal

/-- Numbers are written without an exponent, and integral ones without a point. -/
def plainLayout : Layout where
  tie := .upward
  pointZero := false
  positional := none
  plusSign := false

/-- The text of a number, with the sign of a negative zero. -/
def signedText (x : Float) : List Char :=
  match parts x with
  | .nan => "NaN".toList
  | .infinite negative => if negative then "-Infinity".toList else "Infinity".toList
  | .finite negative size => plainLayout.finite negative size

/-- The text of a number. Both zeros are written alike. -/
def text (x : Float) : String :=
  String.ofList (if x == 0 then ['0'] else signedText x)

/-- Reads text that looks like a number, with blanks around it allowed: a decimal numeral
with an optional sign, or `Infinity` with an optional sign. -/
def read? (s : String) : Option Number :=
  let cs := trim s.toList
  if cs == "Infinity".toList || cs == "+Infinity".toList then some (1 / 0)
  else if cs == "-Infinity".toList then some (-1 / 0)
  else (readFloat cs).map ofFloat

/-- The largest integer below which every integer is a number. -/
def maxSafe : Nat := 9007199254740991

/-- The integer nearest to zero of the two around a number; none for the numbers that are
not finite. -/
def truncated? (x : Float) : Option Int :=
  match parts x with
  | .finite negative ⟨m, q, _⟩ =>
      let n : Int := if q ≥ 0 then m * Nat.pow 2 q.toNat else m / Nat.pow 2 (-q).toNat
      some (if negative then -n else n)
  | _ => none

/-- The number is an integer. -/
def isIntegral (x : Float) : Bool :=
  match parts x with
  | .finite _ ⟨m, q, _⟩ => q ≥ 0 || m % Nat.pow 2 (-q).toNat == 0
  | _ => false

/-- The integer that a number is, if it is one of the safe ones. -/
def safeInt? (x : Float) : Option Int :=
  if isIntegral x then
    match truncated? x with
    | some n => if n.natAbs ≤ maxSafe then some n else none
    | none => none
  else none

/-- Rounds a finite number to an integer, where `away` says of the sign and of a fraction
that is not zero whether to go away from zero. The sign stays. -/
def roundWith (away : Bool → Bool) (x : Float) : Float :=
  match parts x with
  | .finite negative ⟨m, q, _⟩ =>
      if q ≥ 0 then x
      else
        let unit := Nat.pow 2 (-q).toNat
        let n := m / unit
        ofParts negative (if m % unit ≠ 0 && away negative then n + 1 else n) 0
  | _ => x

/-- The integer nearest to zero. -/
def trunc (x : Float) : Float :=
  roundWith (fun _ => false) x

/-- The greatest integer that is not above. -/
def floor (x : Float) : Float :=
  roundWith (fun negative => negative) x

/-- The least integer that is not below. -/
def ceil (x : Float) : Float :=
  roundWith (fun negative => !negative) x

/-- The nearest integer, a half going up. -/
def roundHalfUp (x : Float) : Float :=
  let below := floor x
  if x - below ≥ 0.5 then below + 1 else below

/-- The remainder of a division that rounds toward zero: it has the sign of the dividend
and is exact. -/
def remainder (x y : Float) : Float :=
  match parts x, parts y with
  | .finite negative ⟨m, q, _⟩, .finite _ ⟨m', q', _⟩ =>
      if m' = 0 then 0 / 0
      else
        let low := min q q'
        ofParts negative (m * Nat.pow 2 (q - low).toNat % (m' * Nat.pow 2 (q' - low).toNat)) low
  | .finite .., .infinite _ => x
  | _, _ => 0 / 0

/-- The quotient. Dividing by a zero of either sign gives the infinity with the sign of the
dividend, and not-a-number if the dividend is zero too. -/
def quotient (x y : Number) : Number :=
  if y == 0 then
    if x == 0 || x.isNaN then nan else if (x : Float) > 0 then 1 / 0 else -1 / 0
  else x / y

/-- The smaller of two numbers, the first one if they are equal. -/
def smaller (x y : Float) : Float :=
  if y < x then y else x

/-- The larger of two numbers, the first one if they are equal. -/
def larger (x y : Float) : Float :=
  if x < y then y else x

/-- The place of a number in the total order: those with a minus sign before those without
one, minus zero before zero too, and not-a-number farther out than the infinity of its sign. -/
def rank (x : Number) : Int :=
  let bits := x.bits.toNat
  if bits < Nat.pow 2 63 then bits else Nat.pow 2 63 - 1 - (bits : Int)

/-- Compares by the total order. -/
def compareTotal (x y : Number) : Ordering :=
  compare (rank x) (rank y)

/-- The least and the largest integer of 64 bits with a sign. -/
def minInt64 : Int := -(Nat.pow 2 63)

def maxInt64 : Int := Nat.pow 2 63 - 1

/-- Brings an integer between two bounds. -/
def clampInt (lo hi n : Int) : Int :=
  if n < lo then lo else if hi < n then hi else n

/-- The integer part of a number that is not not-a-number, kept within 64 bits. -/
def toInt64 (x : Float) : Int :=
  match truncated? x with
  | some n => clampInt minInt64 maxInt64 n
  | none => if x > 0 then maxInt64 else minInt64

/-- The integer part of a number, zero for the negative ones and for not-a-number, kept
within 64 bits. -/
def toNat64 (x : Float) : Nat :=
  match truncated? x with
  | some n => min n.toNat (Nat.pow 2 64 - 1)
  | none => if x > 0 then Nat.pow 2 64 - 1 else 0

end Sluice.Number
