/-!
# Binary floating-point numbers taken apart

A `Float` is not a number, an infinity, or a sign with a magnitude `m * 2 ^ q`. Everything
exact in this library (digits, rounding to integers, remainders, the total order) is said
of these parts, over `Nat` and `Int`.
-/
namespace Sluice.Decimal

/-- A finite magnitude `m * 2 ^ q`. -/
structure Magnitude where
  m : Nat
  q : Int
  /-- The gap to the value below is half the gap to the value above. -/
  narrowBelow : Bool
  deriving DecidableEq

/-- What a `Float` stands for. -/
inductive Parts where
  | nan
  | infinite (negative : Bool)
  | finite (negative : Bool) (size : Magnitude)
  deriving DecidableEq

/-- The parts of a value with the given bits. -/
def Parts.ofBits (bits : Nat) : Parts :=
  let negative := bits / Nat.pow 2 63 % 2 == 1
  let exponent : Nat := bits / Nat.pow 2 52 % Nat.pow 2 11
  let fraction : Nat := bits % Nat.pow 2 52
  if exponent == 2047 then
    if fraction == 0 then .infinite negative else .nan
  else if exponent == 0 then
    .finite negative ⟨fraction, -1074, false⟩
  else
    .finite negative ⟨Nat.pow 2 52 + fraction, (exponent : Int) - 1075, fraction == 0 && exponent > 1⟩

/-- The parts of a value. -/
def parts (x : Float) : Parts :=
  .ofBits x.toBits.toNat

/-- The bits of `m * 2 ^ q`, for a magnitude that is a value: below `2 ^ 53` in `m`, with
`q` at least `-1074`. -/
def encode (m : Nat) (q : Int) : Nat :=
  if m = 0 then 0
  else
    let room := min (52 - m.log2) (q + 1074).toNat
    let m := m * Nat.pow 2 room
    let q := q - room
    if m < Nat.pow 2 52 then m else (q + 1075).toNat * Nat.pow 2 52 + (m - Nat.pow 2 52)

/-- The value `± m * 2 ^ q`. -/
def ofParts (negative : Bool) (m : Nat) (q : Int) : Float :=
  let x := Float.ofBits (UInt64.ofNat (encode m q))
  if negative then -x else x

end Sluice.Decimal
