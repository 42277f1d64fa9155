import Sluice.Proofs.Floats

/-!
# What a decimal is rounded to

The nearest number to a decimal is a number: zero, an infinity, or what the arithmetic makes of the
digits and a power of ten. Rounding never gives not-a-number, and neither does a product or a
quotient with a number that is neither zero nor an infinity.
-/
namespace Sluice.Decimal

open Float.Model Float.Model.UnpackedFloat

variable {spec : Format} {u v : UnpackedFloat} {x y : Float}

/-- Neither zero nor an infinity nor not-a-number. -/
def IsRegular : UnpackedFloat → Prop
  | .finite .. => True
  | _ => False

instance : DecidablePred IsRegular
  | .finite .. => .isTrue trivial
  | .infinity _ => .isFalse id
  | .notANumber => .isFalse id
  | .zero _ => .isFalse id

theorem isNaN_roundWithAccuracy (spec : Format) (s : Sign) (m : Nat) (e : Int) (a : Accuracy) :
    (roundWithAccuracy spec s m e a).isNaN = false := by
  unfold roundWithAccuracy
  dsimp only
  split <;> rfl

theorem isNaN_mul (hu : u.isNaN = false) (hv : IsRegular v) :
    (UnpackedFloat.mul spec u v).isNaN = false := by
  cases v with
  | finite => cases u <;> first | rfl | exact isNaN_roundWithAccuracy .. | cases hu
  | _ => cases hv

theorem isNaN_div (hu : u.isNaN = false) (hv : IsRegular v) :
    (UnpackedFloat.div spec u v).isNaN = false := by
  cases v with
  | finite => cases u <;> first | rfl | exact isNaN_roundWithAccuracy .. | cases hu
  | _ => cases hv

theorem isNaN_neg (u : UnpackedFloat) : u.neg.isNaN = u.isNaN := by
  cases u <;> rfl

theorem isNaN_normalize (spec : Format) (m : Int) (e : Int) (s : Sign) :
    (UnpackedFloat.normalize spec m e s).isNaN = false := by
  unfold UnpackedFloat.normalize
  split
  · exact isNaN_roundWithAccuracy ..
  · rfl
  · exact isNaN_roundWithAccuracy ..

theorem isNaN_ofScientific (spec : Format) (m : Nat) (e : Int) :
    (UnpackedFloat.ofScientific spec m e).isNaN = false := by
  unfold UnpackedFloat.ofScientific
  split_ifs
  · rfl
  · rfl
  · rfl
  · exact isNaN_mul rfl trivial
  · exact isNaN_div rfl trivial

/-- What is packed may overflow, but is not-a-number only if it was. -/
theorem isNaN_unpack_pack (u : UnpackedFloat) :
    (UnpackedFloat.unpack .binary64 (UnpackedFloat.pack .binary64 u)).isNaN = u.isNaN := by
  have hinfinity (s : Sign) :
      (UnpackedFloat.unpack .binary64 (packedInfinity .binary64 s)).isNaN = false := by
    simp [UnpackedFloat.unpack, packedInfinity, UnpackedFloat.isNaN]
  have hcomponents (s : Sign) (exponent mantissa) (h : exponent ≠ -1#_) :
      (UnpackedFloat.unpack .binary64 (packComponents .binary64 s exponent mantissa)).isNaN =
        false := by
    simp only [UnpackedFloat.unpack, unpackExponent_packComponents, if_neg h]
    split_ifs <;> rfl
  unfold UnpackedFloat.pack
  split
  · rfl
  · exact hinfinity _
  · exact hcomponents _ _ _ (by decide)
  · next s m e hm =>
      dsimp only
      split_ifs with hover hnormal
      · exact hinfinity s
      · refine hcomponents s _ _ fun h => ?_
        generalize (e + Format.exponentBias .binary64 +
          Format.mantissaBitsWithoutImplicit .binary64).toNat = k at h hover
        have hfull : k % 2 ^ 11 = 2047 := (BitVec.toNat_ofNat k 11).symm.trans (congrArg _ h)
        have hlt : ¬ 2 ^ 11 ≤ k + 1 := hover
        omega
      · exact hcomponents s _ _ (by decide)

/-! ## Numbers -/

theorem isNaN_float_neg (x : Float) : (-x).isNaN = x.isNaN :=
  (isNaN_unpack_pack x.toModel.unpack.neg).trans (isNaN_neg _)

theorem isNaN_float_mul (hx : x.isNaN = false) (hy : IsRegular y.toModel.unpack) :
    (x * y).isNaN = false :=
  (isNaN_unpack_pack (UnpackedFloat.mul .binary64 x.toModel.unpack y.toModel.unpack)).trans
    (isNaN_mul hx hy)

theorem isNaN_float_div (hx : x.isNaN = false) (hy : IsRegular y.toModel.unpack) :
    (x / y).isNaN = false :=
  (isNaN_unpack_pack (UnpackedFloat.div .binary64 x.toModel.unpack y.toModel.unpack)).trans
    (isNaN_div hx hy)

theorem isNaN_toFloat (n : UInt64) : n.toFloat.isNaN = false :=
  (isNaN_unpack_pack (UnpackedFloat.ofNat .binary64 n.toNat)).trans (isNaN_normalize ..)

/-- The powers of ten that have an exact form. -/
theorem isRegular_powerOfTen (h : y ∈ Float.exactlyRepresentablePowersOfTen) :
    IsRegular y.toModel.unpack := by
  have hall : ∀ y ∈ Float.exactlyRepresentablePowersOfTen.toList, IsRegular y.toModel.unpack := by
    decide
  exact hall y (Array.mem_toList_iff.2 h)

theorem isNaN_float_ofScientific (m : Nat) (negative : Bool) (e : Nat) :
    (Float.ofScientific m negative e).isNaN = false := by
  unfold Float.ofScientific
  split
  · dsimp only
    split
    · exact isNaN_float_div (isNaN_toFloat _) (isRegular_powerOfTen (Array.getElem_mem _))
    · exact isNaN_float_mul (isNaN_toFloat _) (isRegular_powerOfTen (Array.getElem_mem _))
  · exact (isNaN_unpack_pack (UnpackedFloat.ofScientific .binary64 m _)).trans
      (isNaN_ofScientific ..)

theorem isNaN_nearest (digits : Nat) (e : Int) : (nearest digits e).isNaN = false := by
  unfold nearest
  dsimp only
  split_ifs
  · decide
  · decide
  · exact isNaN_float_ofScientific ..

/-- A numeral is read as a number. -/
theorem isNaN_of_readFloat {cs : List Char} (h : readFloat cs = some x) : x.isNaN = false := by
  rcases hsigned : Text.signed cs with ⟨negative, body⟩
  rw [readFloat, hsigned] at h
  obtain ⟨n, -, rfl⟩ := Option.map_eq_some_iff.1 h
  split_ifs
  · exact (isNaN_float_neg n.value).trans (isNaN_nearest ..)
  · exact isNaN_nearest ..

end Sluice.Decimal
