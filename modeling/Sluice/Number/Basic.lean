/-!
# Numbers with their bits

A number is binary floating-point of 64 bits. `Float` has one not-a-number; here it keeps its sign
and its payload, which the total order tells apart. All else about a number is what `Float` says of
it.
-/
namespace Sluice

/-- A number, by its bits. -/
structure Number where
  bits : UInt64

namespace Number

/-- The number without the sign and the payload of not-a-number. -/
def toFloat (x : Number) : Float :=
  Float.ofBits x.bits

/-- The number with these bits, or the positive not-a-number. -/
def ofFloat (x : Float) : Number :=
  ⟨x.toBits⟩

instance : Coe Number Float := ⟨toFloat⟩

instance : Coe Float Number := ⟨ofFloat⟩

instance (n : Nat) : OfNat Number n := ⟨ofFloat (OfNat.ofNat n)⟩

instance : OfScientific Number :=
  ⟨fun digits negative exponent => ofFloat (OfScientific.ofScientific digits negative exponent)⟩

instance : BEq Number := ⟨fun x y => x.toFloat == y.toFloat⟩

def isNaN (x : Number) : Bool :=
  x.toFloat.isNaN

def isFinite (x : Number) : Bool :=
  x.toFloat.isFinite

/-- The bit of the sign. -/
def signBit : UInt64 :=
  0x8000000000000000

/-- Not-a-number, as a coercion that fails gives it. -/
def nan : Number :=
  ⟨0x7FF8000000000000⟩

/-- Not-a-number, as arithmetic on other numbers gives it. -/
def invalid : Number :=
  ⟨0xFFF8000000000000⟩

/-- The same not-a-number, with the bit that makes it quiet. -/
def quiet (x : Number) : Number :=
  ⟨x.bits ||| 0x0008000000000000⟩

/-- The result of an operation on numbers. Not-a-number comes through from the first operand that
is one. Which one there is otherwise the standard leaves open; this is the choice of x86-64. -/
def ofResult (operands : List Number) (result : Float) : Number :=
  if result.isNaN then
    match operands.find? isNaN with
    | some x => x.quiet
    | none => invalid
  else ofFloat result

/-- An operation on one number. -/
def lift (op : Float → Float) (x : Number) : Number :=
  ofResult [x] (op x)

/-- An operation on two numbers. -/
def lift₂ (op : Float → Float → Float) (x y : Number) : Number :=
  ofResult [x, y] (op x y)

instance : Add Number := ⟨lift₂ (· + ·)⟩

instance : Sub Number := ⟨lift₂ (· - ·)⟩

instance : Mul Number := ⟨lift₂ (· * ·)⟩

instance : Div Number := ⟨lift₂ (· / ·)⟩

/-- The sign turns, also of not-a-number. -/
instance : Neg Number := ⟨fun x => ⟨x.bits ^^^ signBit⟩⟩

/-- The number with a plus sign, also of not-a-number. -/
def abs (x : Number) : Number :=
  ⟨x.bits &&& ~~~signBit⟩

end Number

end Sluice
