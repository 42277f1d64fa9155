import Sluice.Proofs.Floats

/-!
# Numbers and floats

A number is what `Float` says of it, but for the sign and the payload of not-a-number: all bits but
those of not-a-number are given back by `Float`, and every operation on numbers is the one on
floats. In the total order not-a-number is before all others or after them, by its sign.
-/
namespace Sluice

namespace Decimal

open Float.Model Float.Model.UnpackedFloat

/-! ## Bits that are taken apart -/

section Bits

variable (bits : BitVec (Format.numBits .binary64))

theorem isNaN_unpack : (UnpackedFloat.unpack .binary64 bits).isNaN = isNaNBits bits := by
  unfold UnpackedFloat.unpack isNaNBits
  dsimp only
  split_ifs <;> simp_all [UnpackedFloat.isNaN]

/-- Not-a-number is the one beyond the infinities, on either side. -/
theorem isNaNBits_iff :
    isNaNBits bits = true ↔ 2047 * 2 ^ 52 < bits.toNat % 2 ^ 63 := by
  rw [isNaNBits, decide_eq_true_iff, unpackExponent_eq_full_iff, ne_eq,
    unpackMantissa_eq_zero_iff]
  omega

theorem ofBitVec_xor_one (b : BitVec 1) : Sign.ofBitVec (b ^^^ 1#1) = -Sign.ofBitVec b := by
  rcases BitVec.eq_zero_or_eq_one b with rfl | rfl <;> rfl

/-- To turn the bit of the sign is to negate. -/
theorem unpack_xor_signBit :
    UnpackedFloat.unpack .binary64 (bits ^^^ Number.signBit.toBitVec) =
      (UnpackedFloat.unpack .binary64 bits).neg := by
  have hsign : Sign.ofBitVec (unpackSign (bits ^^^ Number.signBit.toBitVec)) =
      -Sign.ofBitVec (unpackSign bits) := by
    rw [unpackSign, BitVec.extractLsb_xor]
    exact ofBitVec_xor_one _
  have hexponent : unpackExponent (bits ^^^ Number.signBit.toBitVec) = unpackExponent bits := by
    rw [unpackExponent, BitVec.extractLsb_xor]
    exact BitVec.xor_zero
  have hmantissa : unpackMantissa (bits ^^^ Number.signBit.toBitVec) = unpackMantissa bits := by
    rw [unpackMantissa, BitVec.extractLsb_xor]
    exact BitVec.xor_zero
  unfold UnpackedFloat.unpack
  simp only [hsign, hexponent, hmantissa]
  split_ifs <;> rfl

/-- To clear the bit of the sign is to take the absolute value. -/
theorem unpack_and_not_signBit :
    UnpackedFloat.unpack .binary64 (bits &&& ~~~Number.signBit.toBitVec) =
      (UnpackedFloat.unpack .binary64 bits).abs := by
  have hsign : Sign.ofBitVec (unpackSign (bits &&& ~~~Number.signBit.toBitVec)) = .positive := by
    rw [unpackSign, BitVec.extractLsb_and]
    exact congrArg Sign.ofBitVec BitVec.and_zero
  have hexponent : unpackExponent (bits &&& ~~~Number.signBit.toBitVec) = unpackExponent bits := by
    rw [unpackExponent, BitVec.extractLsb_and]
    exact BitVec.and_allOnes
  have hmantissa : unpackMantissa (bits &&& ~~~Number.signBit.toBitVec) = unpackMantissa bits := by
    rw [unpackMantissa, BitVec.extractLsb_and]
    exact BitVec.and_allOnes
  unfold UnpackedFloat.unpack
  simp only [hsign, hexponent, hmantissa]
  split_ifs <;> rfl

end Bits

end Decimal

namespace Number

open Decimal Float.Model Float.Model.UnpackedFloat

variable {x y : Number}

@[simp] theorem toFloat_ofFloat (x : Float) : (ofFloat x).toFloat = x :=
  Float.ofBits_toBits x

@[simp] theorem isNaN_ofFloat (x : Float) : (ofFloat x).isNaN = x.isNaN :=
  congrArg Float.isNaN (toFloat_ofFloat x)

/-- What `Float` says of a number is what its bits say. -/
theorem unpack_toFloat (x : Number) :
    x.toFloat.toModel.unpack = UnpackedFloat.unpack .binary64 x.bits.toBitVec := by
  have hpacked : x.toFloat.toModel.unpack = UnpackedFloat.unpack .binary64
      (UnpackedFloat.pack .binary64 (UnpackedFloat.unpack .binary64 x.bits.toBitVec)) := rfl
  rw [hpacked, pack_unpack]
  split_ifs with hnan
  · rw [unpack_packedNaN, eq_comm, ← UnpackedFloat.isNaN_iff, isNaN_unpack, hnan]
  · rfl

theorem isNaN_eq (x : Number) : x.isNaN = @isNaNBits .binary64 x.bits.toBitVec := by
  rw [← isNaN_unpack, ← unpack_toFloat]
  rfl

/-- All bits but those of not-a-number are given back. -/
theorem ofFloat_toFloat (h : x.isNaN = false) : ofFloat x.toFloat = x := by
  have hbits : UInt64.ofBitVec (UnpackedFloat.pack .binary64
      (UnpackedFloat.unpack .binary64 x.bits.toBitVec)) = x.bits := by
    rw [pack_unpack, ← isNaN_eq, h, if_neg Bool.false_ne_true, UInt64.ofBitVec_toBitVec]
  exact congrArg Number.mk hbits

theorem beq_eq (x y : Number) : (x == y) = (x.toFloat == y.toFloat) :=
  rfl

theorem beq_self_iff : (x == x) = true ↔ x.isNaN = false := by
  rw [beq_eq, Float.beq_self_iff, isNaN, Float.isNaN_eq_decide_eq_nan, decide_eq_false_iff_not]

theorem isNaN_of_isFinite (h : x.isFinite = true) : x.isNaN = false :=
  beq_self_iff.1 (beq_self_of_isFinite h)

/-! ## Operations -/

theorem toFloat_eq_pack (x : Number) :
    x.toFloat = .ofModel (.pack (UnpackedFloat.unpack .binary64 x.bits.toBitVec)) :=
  rfl

@[simp] theorem toFloat_neg (x : Number) : (-x).toFloat = -x.toFloat := by
  have hneg : -x.toFloat = .ofModel (.pack x.toFloat.toModel.unpack.neg) := rfl
  rw [hneg, unpack_toFloat, toFloat_eq_pack, ← unpack_xor_signBit]
  rfl

@[simp] theorem toFloat_abs (x : Number) : x.abs.toFloat = x.toFloat.abs := by
  have habs : x.toFloat.abs = .ofModel (.pack x.toFloat.toModel.unpack.abs) := rfl
  rw [habs, unpack_toFloat, toFloat_eq_pack, ← unpack_and_not_signBit]
  rfl

theorem isNaN_quiet (h : x.isNaN = true) : x.quiet.isNaN = true := by
  rw [isNaN_eq, isNaNBits_iff, UInt64.toNat_toBitVec] at h ⊢
  have hquiet : x.quiet.bits.toNat % 2 ^ 63 =
      x.bits.toNat % 2 ^ 63 ||| 0x0008000000000000 % 2 ^ 63 := by
    rw [← Nat.or_mod_two_pow]
    exact congrArg (· % 2 ^ 63) (UInt64.toNat_or ..)
  rw [hquiet]
  exact Nat.lt_of_lt_of_le h Nat.left_le_or

/-- The result of an operation is the one on floats, also where it is not-a-number. -/
@[simp] theorem toFloat_ofResult (operands : List Number) (result : Float) :
    (ofResult operands result).toFloat = result := by
  have hone {y z : Float} (hy : y.isNaN = true) (hz : z.isNaN = true) : y = z := by
    rw [Float.isNaN_eq_decide_eq_nan, decide_eq_true_iff] at hy hz
    rw [hy, hz]
  unfold ofResult
  split_ifs with hnan
  · split
    · next x hx =>
        exact hone (isNaN_quiet (List.find?_some hx)) hnan
    · exact hone rfl hnan
  · exact toFloat_ofFloat result

@[simp] theorem toFloat_lift (op : Float → Float) (x : Number) :
    (x.lift op).toFloat = op x.toFloat :=
  toFloat_ofResult [x] _

@[simp] theorem toFloat_lift₂ (op : Float → Float → Float) (x y : Number) :
    (lift₂ op x y).toFloat = op x.toFloat y.toFloat :=
  toFloat_ofResult [x, y] _

/-! ## The total order -/

/-- The bit of the sign is set, perhaps that of not-a-number. -/
def isNegative (x : Number) : Bool :=
  2 ^ 63 ≤ x.bits.toNat

/-- Between the two infinities are all numbers that are not not-a-number. -/
theorem isNaN_iff_rank (x : Number) :
    x.isNaN = true ↔ rank x < -(2047 * 2 ^ 52) - 1 ∨ 2047 * 2 ^ 52 < rank x := by
  rw [isNaN_eq, isNaNBits_iff, UInt64.toNat_toBitVec]
  have hlt : x.bits.toNat < 2 ^ 64 := x.bits.toNat_lt
  unfold rank
  simp only [Nat.pow_eq]
  split_ifs <;> omega

theorem isNegative_iff_rank (x : Number) : x.isNegative = true ↔ rank x < 0 := by
  have hlt : x.bits.toNat < 2 ^ 64 := x.bits.toNat_lt
  unfold isNegative rank
  simp only [Nat.pow_eq, decide_eq_true_iff]
  split_ifs <;> omega

/-- Not-a-number is before all others or after them, by its sign. -/
theorem compareTotal_of_isNaN (hx : x.isNaN = true) (hy : y.isNaN = false) :
    compareTotal x y = if x.isNegative then .lt else .gt := by
  have hinner : ¬ (rank y < -(2047 * 2 ^ 52) - 1 ∨ 2047 * 2 ^ 52 < rank y) := fun h =>
    Bool.false_ne_true (hy.symm.trans ((isNaN_iff_rank y).2 h))
  rw [isNaN_iff_rank] at hx
  unfold compareTotal
  split_ifs with hsign
  · rw [isNegative_iff_rank] at hsign
    exact Std.compare_eq_lt.2 (by omega)
  · rw [isNegative_iff_rank] at hsign
    exact Std.compare_eq_gt.2 (by omega)

example : compareTotal (-nan) (-1 / 0) = .lt := by decide +kernel

end Number

end Sluice
