import Sluice.Number
import Mathlib

/-!
# Safe integers as numbers

The parts that this library sees of a number are those that its arithmetic works on. An integer
below `2 ^ 53` has one form as such parts, and the conversion of integers gives just that form.
-/
namespace Sluice.Decimal

open Float.Model Float.Model.UnpackedFloat

/-! ## The parts of a number -/

/-- The sign of the arithmetic. -/
def signOf (negative : Bool) : Sign :=
  if negative then .negative else .positive

/-- Parts and the unpacked form are of one number. A magnitude that is not zero is normal or has
the least exponent. -/
inductive Parts.Agree : Parts → UnpackedFloat → Prop
  | nan : Agree .nan .notANumber
  | infinite (negative : Bool) : Agree (.infinite negative) (.infinity (signOf negative))
  | zero (negative : Bool) : Agree (.finite negative ⟨0, -1074, false⟩) (.zero (signOf negative))
  | finite (negative : Bool) (m : Nat) (q : Int) (narrowBelow : Bool) (hpos : 0 < m)
      (hlt : m < 2 ^ 53) (hnormal : 2 ^ 52 ≤ m ∨ q = -1074) :
      Agree (.finite negative ⟨m, q, narrowBelow⟩) (.finite (signOf negative) m q hpos)

theorem Parts.Agree.of_eq {negative narrowBelow : Bool} {m m' : Nat} {q q' : Int} {hpos : 0 < m'}
    (hm : m' = m) (hq : q' = q) (hlt : m < 2 ^ 53) (hnormal : 2 ^ 52 ≤ m ∨ q = -1074) :
    Agree (.finite negative ⟨m, q, narrowBelow⟩) (.finite (signOf negative) m' q' hpos) := by
  subst hm hq
  exact .finite negative m' q' narrowBelow hpos hlt hnormal

/-- A normal magnitude has a leading bit that is not written. -/
theorem toNat_implicit (mantissa : BitVec 52) :
    (1#1 ++ mantissa).toNat = 2 ^ 52 + mantissa.toNat := by
  rw [BitVec.toNat_append, ← Nat.shiftLeft_add_eq_or_of_lt mantissa.isLt]
  rfl

section Unpack

variable (bits : BitVec (Format.numBits .binary64))

theorem toNat_unpackMantissa :
    (unpackMantissa bits).toNat = bits.toNat % 2 ^ 52 := by
  simp [unpackMantissa]

theorem toNat_unpackExponent :
    (unpackExponent bits).toNat = bits.toNat / 2 ^ 52 % 2 ^ 11 := by
  simp [unpackExponent, Nat.shiftRight_eq_div_pow]

theorem toNat_unpackSign :
    (unpackSign bits).toNat = bits.toNat / 2 ^ 63 % 2 := by
  simp [unpackSign, Nat.shiftRight_eq_div_pow]

theorem ofBitVec_unpackSign :
    Sign.ofBitVec (unpackSign bits) = signOf (bits.toNat / 2 ^ 63 % 2 == 1) := by
  have hsign := toNat_unpackSign bits
  have hlt : bits.toNat / 2 ^ 63 % 2 < 2 := Nat.mod_lt _ (by decide)
  unfold Sign.ofBitVec signOf
  rcases Nat.eq_zero_or_pos (bits.toNat / 2 ^ 63 % 2) with h | h
  · have hzero : unpackSign bits = 0#1 := BitVec.eq_of_toNat_eq (hsign.trans h)
    rw [if_pos hzero, h]
    rfl
  · have hone : bits.toNat / 2 ^ 63 % 2 = 1 := by omega
    rw [if_neg, hone]
    · rfl
    · intro hz
      rw [hz, hone] at hsign
      cases hsign

theorem unpackExponent_eq_full_iff :
    unpackExponent bits = -1#_ ↔ bits.toNat / 2 ^ 52 % 2 ^ 11 = 2047 := by
  rw [← toNat_unpackExponent, ← BitVec.toNat_inj]
  rfl

theorem unpackExponent_eq_zero_iff :
    unpackExponent bits = 0#_ ↔ bits.toNat / 2 ^ 52 % 2 ^ 11 = 0 := by
  rw [← toNat_unpackExponent, ← BitVec.toNat_inj]
  rfl

theorem unpackMantissa_eq_zero_iff : unpackMantissa bits = 0#_ ↔ bits.toNat % 2 ^ 52 = 0 := by
  rw [← toNat_unpackMantissa, ← BitVec.toNat_inj]
  rfl

theorem agree_ofBits : (Parts.ofBits bits.toNat).Agree (UnpackedFloat.unpack .binary64 bits) := by
  have hsign := ofBitVec_unpackSign bits
  have hexp := toNat_unpackExponent bits
  have hman := toNat_unpackMantissa bits
  have hmanlt : bits.toNat % 2 ^ 52 < 2 ^ 52 := Nat.mod_lt _ (by decide)
  have hbias : (Format.exponentBias .binary64 : Int) = 1023 := rfl
  have hfull := unpackExponent_eq_full_iff bits
  have hnone := unpackExponent_eq_zero_iff bits
  have hzero := unpackMantissa_eq_zero_iff bits
  unfold Parts.ofBits UnpackedFloat.unpack
  simp only [hsign, hexp, hman, hfull, hnone, hzero, Nat.pow_eq, beq_iff_eq]
  split
  · split
    · exact .infinite _
    · exact .nan
  · split
    · next hbottom =>
        split
        · next h =>
            rw [h]
            exact .zero _
        · refine .of_eq rfl ?_ (by omega) (.inr rfl)
          rw [hbottom, hbias]
          rfl
    · refine .of_eq ?_ ?_ (by omega) (.inl (by omega))
      · rw [toNat_implicit, hman]
      · rw [hbias]
        rfl

end Unpack

/-- What the arithmetic works on are the parts. -/
theorem agree_parts (x : Float) : (parts x).Agree x.toModel.unpack :=
  agree_ofBits _

theorem isFinite_iff (x : Float) :
    x.isFinite = true ↔ ∃ negative size, parts x = .finite negative size := by
  have hfinite : x.isFinite = x.toModel.unpack.isFinite := rfl
  have hagree := agree_parts x
  rw [hfinite]
  generalize parts x = p, x.toModel.unpack = u at hagree
  cases hagree <;> simp [UnpackedFloat.isFinite]

theorem isNaN_iff (x : Float) : x.isNaN = true ↔ parts x = .nan := by
  have hnan : x.isNaN = x.toModel.unpack.isNaN := rfl
  have hagree := agree_parts x
  rw [hnan]
  generalize parts x = p, x.toModel.unpack = u at hagree
  cases hagree <;> simp [UnpackedFloat.isNaN]

theorem beq_self_of_isFinite {x : Float} (h : x.isFinite = true) : (x == x) = true := by
  refine Float.beq_self_iff.2 ?_
  rintro rfl
  have hnan : Float.nan.isFinite = false := rfl
  rw [hnan] at h
  cases h

/-! ## Integers without rounding -/

theorem log2_mul_two_pow {m : Nat} (hm : 0 < m) (k : Nat) : (m * 2 ^ k).log2 = m.log2 + k := by
  have hpos : 0 < m * 2 ^ k := Nat.mul_pos hm (Nat.two_pow_pos k)
  have hnext : m.log2 + k + 1 = m.log2 + 1 + k := by omega
  rw [Nat.log2_eq_iff (Nat.ne_of_gt hpos), hnext, Nat.pow_add, Nat.pow_add]
  exact ⟨Nat.mul_le_mul_right _ (Nat.log2_self_le (Nat.ne_of_gt hm)),
    Nat.mul_lt_mul_of_pos_right Nat.lt_log2_self (Nat.two_pow_pos k)⟩

/-- Bits that are zero are shifted out without a trace. -/
theorem shiftRight_exact (m k : Nat) :
    (⟨m * 2 ^ k, false, false⟩ : ExtendedMantissa) >>> k = ⟨m, false, false⟩ := by
  change k.repeat ExtendedMantissa.shiftRightOne _ = _
  induction k generalizing m with
  | zero => simp [Nat.repeat]
  | succ k ih =>
      have hdouble : m * 2 ^ (k + 1) = 2 * m * 2 ^ k := by
        rw [Nat.pow_succ, Nat.mul_comm 2 m, Nat.mul_assoc, Nat.mul_comm 2]
      rw [Nat.repeat, hdouble, ih]
      simp [ExtendedMantissa.shiftRightOne]

/-- A magnitude that has a form with the exponent that its size asks for keeps its value. -/
theorem roundWithAccuracy_exact (spec : Format) (s : Sign) {m : Nat} (hm : 0 < m) {e : Int}
    {k : Nat} (htarget : spec.targetExponent (totalExponent m (e + k)) = e + k) :
    roundWithAccuracy spec s (m * 2 ^ k) e .exact = .finite s m (e + k) hm := by
  have htotal : totalExponent (m * 2 ^ k) e = totalExponent m (e + k) := by
    simp only [totalExponent, log2_mul_two_pow hm]
    omega
  have hfirst : shiftToTargetExponent spec (m * 2 ^ k) e .exact = (⟨m, false, false⟩, e + k) := by
    simp only [shiftToTargetExponent, shiftToExponent, htotal, htarget]
    rw [show (e + k - e).toNat = k by omega]
    exact Prod.ext (shiftRight_exact m k) rfl
  have hsecond : shiftToTargetExponent spec m (e + k) .exact = (⟨m, false, false⟩, e + k) := by
    simp only [shiftToTargetExponent, shiftToExponent, htarget, Int.sub_self]
    simp
    rfl
  have hrounded : (⟨m, false, false⟩ : ExtendedMantissa).roundedMantissa = m := rfl
  simp only [roundWithAccuracy, hfirst, hrounded, hsecond]
  exact dif_neg (Nat.ne_of_gt hm)

/-! ## The form of an integer -/

/-- The exponent of a normal number is written as neither the least nor the greatest. -/
theorem exponentField_normal (k : Nat) (hlow : 0 < k) (hhigh : k < 2047) :
    (BitVec.ofNat 11 k).toNat = k ∧ BitVec.ofNat 11 k ≠ -1#_ ∧ BitVec.ofNat 11 k ≠ 0#_ := by
  have hfits : (BitVec.ofNat 11 k).toNat = k := by
    rw [BitVec.toNat_ofNat, Nat.mod_eq_of_lt (by omega)]
  refine ⟨hfits, ?_, ?_⟩
  · intro h
    have hfull : 2047 = k := by rwa [h] at hfits
    omega
  · intro h
    have hnone : 0 = k := by rwa [h] at hfits
    omega

/-- The magnitude of an integer with all bits in use. -/
def significand (n : Nat) : Nat :=
  n * 2 ^ (52 - n.log2)

/-- The exponent that goes with it. -/
def exponentOf (n : Nat) : Int :=
  (n.log2 : Int) - 52

section Safe

variable {n : Nat} (hpos : 0 < n) (hlt : n < 2 ^ 53)
include hpos

theorem significand_pos : 0 < significand n :=
  Nat.mul_pos hpos (Nat.two_pow_pos _)

include hlt

theorem log2_le_of_lt : n.log2 ≤ 52 :=
  Nat.le_of_lt_succ ((Nat.log2_lt (Nat.ne_of_gt hpos)).2 hlt)

theorem log2_significand : (significand n).log2 = 52 := by
  have hle := log2_le_of_lt hpos hlt
  rw [significand, log2_mul_two_pow hpos]
  omega

theorem significand_bounds : 2 ^ 52 ≤ significand n ∧ significand n < 2 ^ 53 :=
  (Nat.log2_eq_iff (Nat.ne_of_gt (significand_pos hpos))).1 (log2_significand hpos hlt)

theorem targetExponent_significand :
    Format.targetExponent .binary64 (totalExponent (significand n) (exponentOf n)) =
      exponentOf n := by
  simp only [totalExponent, log2_significand hpos hlt, exponentOf, Format.targetExponent,
    Format.mantissaBits, Format.minExponent]
  omega

theorem ofNat_eq : UnpackedFloat.ofNat .binary64 n =
    .finite .positive (significand n) (exponentOf n) (significand_pos hpos) := by
  have hle := log2_le_of_lt hpos hlt
  have htarget := targetExponent_significand hpos hlt
  have hsame : totalExponent n 0 = totalExponent (significand n) (exponentOf n) := by
    simp only [totalExponent, log2_significand hpos hlt, exponentOf]
    omega
  have hgt : compare (n : Int) 0 = .gt := Int.compare_eq_gt.2 (by omega)
  have hshift : (0 - exponentOf n).toNat = 52 - n.log2 := by
    rw [exponentOf]
    omega
  have hexponent : (0 : Int) - ((52 - n.log2 : Nat) : Int) = exponentOf n := by
    rw [exponentOf]
    omega
  simp only [UnpackedFloat.ofNat, UnpackedFloat.ofInt, UnpackedFloat.normalize, hgt,
    UnpackedFloat.round, hsame, htarget, decreaseExponent, hshift, Int.toNat_natCast,
    Nat.shiftLeft_eq, hexponent]
  have hround := roundWithAccuracy_exact .binary64 .positive (significand_pos hpos)
    (e := exponentOf n) (k := 0) (by simpa using htarget)
  simpa [significand] using hround

/-- What is packed is unpacked again. -/
theorem unpack_pack (s : Sign) :
    UnpackedFloat.unpack .binary64 (UnpackedFloat.pack .binary64
        (.finite s (significand n) (exponentOf n) (significand_pos hpos))) =
      .finite s (significand n) (exponentOf n) (significand_pos hpos) := by
  have hle := log2_le_of_lt hpos hlt
  have hlog := log2_significand hpos hlt
  have hbias : (Format.exponentBias .binary64 : Int) = 1023 := rfl
  have hbiased :
      (exponentOf n + Format.exponentBias .binary64 + (52 : Nat)).toNat = n.log2 + 1023 := by
    rw [exponentOf, hbias]
    omega
  obtain ⟨hfits, hfull, hnone⟩ := exponentField_normal (n.log2 + 1023) (by omega) (by omega)
  have hwhole : (1#1 ++ BitVec.ofNat 52 (significand n)).toNat = significand n := by
    obtain ⟨hlow, hhigh⟩ := significand_bounds hpos hlt
    rw [toNat_implicit, BitVec.toNat_ofNat]
    omega
  unfold UnpackedFloat.pack
  simp only [hbiased, hlog]
  rw [if_neg (by omega), if_pos (show 52 + 1 = Format.mantissaBits .binary64 from rfl)]
  simp only [UnpackedFloat.unpack, unpackMantissa_packComponents, unpackExponent_packComponents,
    unpackSign_packComponents, Sign.ofBitVec_toBitVec, hfull, hnone, hwhole, hfits, if_false, UnpackedFloat.finite.injEq,
    true_and]
  rw [exponentOf, hbias]
  omega

theorem unpack_toFloat : n.toUInt64.toFloat.toModel.unpack =
    .finite .positive (significand n) (exponentOf n) (significand_pos hpos) := by
  have hn : n.toUInt64.toNat = n := by
    rw [Nat.toUInt64, UInt64.toNat_ofNat', Nat.mod_eq_of_lt (by omega)]
  have hpacked : n.toUInt64.toFloat.toModel.unpack =
      UnpackedFloat.unpack .binary64
        (UnpackedFloat.pack .binary64 (UnpackedFloat.ofNat .binary64 n.toUInt64.toNat)) := rfl
  rw [hpacked, hn, ofNat_eq hpos hlt, unpack_pack hpos hlt]

/-- The conversion takes an integer times ten to the power of zero. -/
theorem unpack_floatOfNat : (Float.ofNat n).toModel.unpack =
    .finite .positive (significand n) (exponentOf n) (significand_pos hpos) := by
  obtain ⟨one, htable⟩ : ∃ one, one = Float.exactlyRepresentablePowersOfTen[0] := ⟨_, rfl⟩
  have hone : one.toModel.unpack = .finite .positive (2 ^ 52) (-52) (by decide) := by
    subst htable
    rfl
  have hproduct : Float.ofNat n = n.toUInt64.toFloat * one := by
    unfold Float.ofNat
    simp only [OfScientific.ofScientific, Float.ofScientific]
    rw [dif_pos ⟨hlt, by decide⟩, htable]
    simp
  have hmul : (n.toUInt64.toFloat * one).toModel.unpack =
      UnpackedFloat.unpack .binary64 (UnpackedFloat.pack .binary64
        (UnpackedFloat.mul .binary64 n.toUInt64.toFloat.toModel.unpack one.toModel.unpack)) := rfl
  have hback : exponentOf n + -52 + ((52 : Nat) : Int) = exponentOf n := by omega
  have hexact := roundWithAccuracy_exact .binary64 .positive (significand_pos hpos)
    (e := exponentOf n + -52) (k := 52) (by rw [hback]; exact targetExponent_significand hpos hlt)
  rw [hproduct, hmul, unpack_toFloat hpos hlt, hone]
  change UnpackedFloat.unpack .binary64 (UnpackedFloat.pack .binary64 (roundWithAccuracy .binary64
    .positive (significand n * 2 ^ 52) (exponentOf n + -52) .exact)) = _
  simp only [hexact, hback, unpack_pack hpos hlt]

end Safe

/-- A safe integer as a number has the form of the integer. -/
theorem unpack_ofInt {n : Nat} (negative : Bool) (hpos : 0 < n) (hlt : n < 2 ^ 53) :
    (Float.ofInt (if negative then -(n : Int) else n)).toModel.unpack =
      .finite (signOf negative) (significand n) (exponentOf n) (significand_pos hpos) := by
  cases negative with
  | false => exact unpack_floatOfNat hpos hlt
  | true =>
      obtain ⟨k, rfl⟩ := Nat.exists_eq_succ_of_ne_zero (Nat.ne_of_gt hpos)
      have hneg : (Float.ofInt (.negSucc k)).toModel.unpack = UnpackedFloat.unpack .binary64
          (UnpackedFloat.pack .binary64 (Float.ofNat k.succ).toModel.unpack.neg) := rfl
      rw [unpack_floatOfNat hpos hlt] at hneg
      exact hneg.trans (unpack_pack hpos hlt .negative)

/-! ## The integer that a number is -/

/-- A magnitude with the value of an integer has the form of the integer. -/
theorem eq_significand {m n : Nat} {q : Int} (hpos : 0 < m) (hlt : m < 2 ^ 53)
    (hnormal : 2 ^ 52 ≤ m ∨ q = -1074) (hn : n < 2 ^ 53)
    (hvalue : n = m * 2 ^ q.toNat ∧ 0 ≤ q ∨ m = n * 2 ^ (-q).toNat ∧ q < 0) :
    0 < n ∧ m = significand n ∧ q = exponentOf n := by
  have hm : m.log2 ≤ 52 := log2_le_of_lt hpos hlt
  have hfull (h : 2 ^ 52 ≤ m) : m.log2 = 52 :=
    (Nat.log2_eq_iff (Nat.ne_of_gt hpos)).2 ⟨h, hlt⟩
  rcases hvalue with ⟨rfl, hq⟩ | ⟨rfl, hq⟩
  · have hnpos : 0 < m * 2 ^ q.toNat := Nat.mul_pos hpos (Nat.two_pow_pos _)
    have hlog := log2_mul_two_pow hpos q.toNat
    have hle := log2_le_of_lt hnpos hn
    have h52 := hfull (hnormal.resolve_right (by omega))
    obtain rfl : q = 0 := by omega
    simp [significand, exponentOf, h52, hpos]
  · have hnpos : 0 < n := Nat.pos_of_mul_pos_right hpos
    have hlog := log2_mul_two_pow hnpos (-q).toNat
    have h52 := hfull (hnormal.resolve_right (by omega))
    have hshift : (-q).toNat = 52 - n.log2 := by omega
    exact ⟨hnpos, by rw [significand, hshift], by rw [exponentOf]; omega⟩

/-- The parts of a number that is a safe integer are a sign and a magnitude that is whole. -/
theorem parts_of_safeInt? {x : Float} {n : Int} (h : Number.safeInt? x = some n) :
    ∃ negative m q narrowBelow, parts x = .finite negative ⟨m, q, narrowBelow⟩ ∧
      ∃ size : Nat, n = (if negative then -(size : Int) else size) ∧ size < 2 ^ 53 ∧
        (size = m * 2 ^ q.toNat ∧ 0 ≤ q ∨ m = size * 2 ^ (-q).toNat ∧ q < 0) := by
  unfold Number.safeInt? Number.isIntegral Number.truncated? at h
  generalize parts x = p at h ⊢
  cases p with
  | nan => simp at h
  | infinite negative => simp at h
  | finite negative size =>
      obtain ⟨m, q, narrowBelow⟩ := size
      simp only [Option.ite_none_right_eq_some, Bool.or_eq_true, decide_eq_true_eq, beq_iff_eq] at h
      obtain ⟨hwhole, hsafe, he⟩ := h
      obtain rfl := Option.some.inj he
      have habs (size : Nat) : (if negative then -(size : Int) else size).natAbs = size := by
        cases negative <;> simp
      refine ⟨negative, m, q, narrowBelow, rfl, ?_⟩
      by_cases hq : q ≥ 0
      · simp only [if_pos hq] at hsafe ⊢
        refine ⟨m * 2 ^ q.toNat, by simp, ?_, .inl ⟨rfl, hq⟩⟩
        have hle := habs (m * 2 ^ q.toNat) ▸ hsafe
        exact Nat.lt_succ_of_le hle
      · simp only [if_neg hq] at hsafe ⊢
        refine ⟨m / 2 ^ (-q).toNat, by simp, ?_, .inr ⟨?_, by omega⟩⟩
        · have hle := habs (m / 2 ^ (-q).toNat) ▸ hsafe
          exact Nat.lt_succ_of_le hle
        · exact (Nat.div_mul_cancel (Nat.dvd_of_mod_eq_zero (hwhole.resolve_left hq))).symm

theorem isFinite_of_safeInt? {x : Float} {n : Int} (h : Number.safeInt? x = some n) :
    x.isFinite = true := by
  obtain ⟨negative, m, q, narrowBelow, hparts, -⟩ := parts_of_safeInt? h
  exact (isFinite_iff x).2 ⟨negative, _, hparts⟩

/-- A number that is a safe integer is the number of that integer. -/
theorem ofInt_beq_of_safeInt? {x : Float} {n : Int} (h : Number.safeInt? x = some n) :
    (Float.ofInt n == x) = true := by
  have hbeq : (Float.ofInt n == x) = (Float.ofInt n).toModel.unpack.beq x.toModel.unpack := rfl
  have hagree := agree_parts x
  obtain ⟨negative, m, q, narrowBelow, hparts, size, rfl, hlt, hvalue⟩ := parts_of_safeInt? h
  rw [hparts] at hagree
  rw [hbeq]
  generalize x.toModel.unpack = u at hagree
  cases hagree with
  | zero =>
      obtain rfl : size = 0 := by
        rcases hvalue with ⟨hsize, -⟩ | ⟨hsize, -⟩
        · rw [hsize, Nat.zero_mul]
        · exact (Nat.mul_eq_zero.1 hsize.symm).resolve_right (Nat.ne_of_gt (Nat.two_pow_pos _))
      have hzero : (Float.ofInt 0).toModel.unpack = .zero .positive := rfl
      cases negative <;> exact congrArg (UnpackedFloat.beq · _) hzero
  | finite _ _ _ _ hpos hm hnormal =>
      obtain ⟨hsize, rfl, rfl⟩ := eq_significand hpos hm hnormal hlt hvalue
      rw [unpack_ofInt negative hsize hlt, beq_iff_ne_notANumber_and_eq]
      exact ⟨by simp, by simp, .inl rfl⟩

end Sluice.Decimal
