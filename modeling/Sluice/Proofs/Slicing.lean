import Sluice.Evaluation
import Sluice.Proofs.Numbers
import Sluice.Proofs.PathTexts
import Sluice.Template.Resolve

/-!
# Slices, counts and places

A bound cuts a list in two at a place that is never after its end, whatever the bound is: what is
taken lies before the place and what is skipped leaves the rest. The slices that paths write with
one bound are these two parts, and the item at a number is the first of what is left after skipping
this number, unless the number goes back before the start of the list.
-/
namespace Sluice

variable {α : Type} {n : Int}

/-! ## The place of a bound -/

/-- A slice lies within the list, whatever its bounds are. -/
theorem sliceBounds_within (length : Nat) (start : Int) (stop : Option Int) :
    (sliceBounds length start stop).1 ≤ (sliceBounds length start stop).2 ∧
      (sliceBounds length start stop).2 ≤ length := by
  refine ⟨sliceBounds_fst_le_snd length start stop, Nat.max_le.2 ⟨boundIn_le length start, ?_⟩⟩
  cases stop with
  | none => exact Nat.le_refl length
  | some stop => exact boundIn_le length stop

theorem sliceItems_none (xs : List α) (n : Int) :
    sliceItems xs n none = xs.drop (boundIn xs.length n) := by
  have hle := boundIn_le xs.length n
  simp only [sliceItems, sliceBounds, Nat.max_eq_right hle]
  exact List.take_of_length_le (by rw [List.length_drop])

theorem sliceItems_zero_some (xs : List α) (n : Int) :
    sliceItems xs 0 (some n) = xs.take (boundIn xs.length n) := by
  have hzero : boundIn xs.length 0 = 0 := Nat.zero_min xs.length
  simp only [sliceItems, sliceBounds, hzero, List.drop_zero, Nat.zero_max, Nat.sub_zero]

theorem sliceItems_append (xs : List α) (n : Int) :
    sliceItems xs 0 (some n) ++ sliceItems xs n none = xs := by
  rw [sliceItems_none, sliceItems_zero_some, List.take_append_drop]

theorem Items.at?_eq (xs : List Value) (n : Int) :
    Items.at? xs n =
      if n < -(xs.length : Int) then .missing else (sliceItems xs n none).headD .missing := by
  rw [sliceItems_none, List.headD_eq_head?_getD, List.head?_drop]
  simp only [Items.at?]
  by_cases hneg : n < 0
  · rw [if_pos hneg, boundIn, if_pos hneg]
    by_cases hlow : n < -(xs.length : Int)
    · rw [if_pos hlow, if_pos (by omega)]
    · have hplace : (xs.length + n).toNat = xs.length - n.natAbs := by omega
      rw [if_neg hlow, if_neg (by omega), hplace]
  · rw [if_neg hneg, boundIn, if_neg hneg, if_neg hneg, if_neg (by omega)]
    rcases Nat.le_total n.natAbs xs.length with hle | hle
    · have hplace : n.toNat = n.natAbs := by omega
      rw [Nat.min_eq_left hle, hplace]
    · have hplace : xs.length ≤ n.toNat := by omega
      rw [Nat.min_eq_right hle, List.getElem?_eq_none hplace, List.getElem?_eq_none (Nat.le_refl _)]

/-! ## Slices in paths -/

namespace Path

open Sluice.Text

/-- A text in brackets after the root is read as the root and the step that it stands for. -/
theorem ofText_bracket {inner : List Char} {step : Step} (hbody : BracketBody inner)
    (hstep : classify inner = .ok step) :
    ofText (String.ofList ('$' :: '[' :: (inner ++ [']']))) =
      .ok ⟨String.ofList ('$' :: '[' :: (inner ++ [']'])), [.root, step]⟩ := by
  have htrim : trim ('$' :: '[' :: (inner ++ [']'])) = '$' :: '[' :: (inner ++ [']']) := by
    refine trim_eq_self (by simpa using (by decide : isBlank '$' = false)) ?_
    simpa [List.getLast?_cons] using (by decide : isBlank ']' = false)
  have hsteps : stepsOf ('$' :: '[' :: (inner ++ [']'])) = .ok [.root, step] := by
    have hread := hbody.stepsFrom_append []
    rw [hstep, stepsFrom_nil] at hread
    rw [stepsOf, hread]
    rfl
  simp only [ofText, String.toList_ofList, htrim, hsteps]

theorem isPlain_of_mem_intDigits {c : Char} (h : c ∈ intDigits n) :
    isQuote c = false ∧ c ≠ ']' :=
  have hdigit := isDigitOrMinus_of_mem_intDigits h
  ⟨isQuote_of_isDigitOrMinus hdigit, ne_of_class isDigitOrMinus hdigit (by decide)⟩

/-- A slice whose first bound is not written. -/
theorem classify_colon (h : IsBound n) :
    classify (':' :: intDigits n) = .ok (.slice 0 (some n)) := by
  have hlast : ∀ c ∈ (':' :: intDigits n).getLast?, isBlank c = false := by
    intro c hc
    rcases List.mem_cons.1 (List.mem_of_getLast? hc) with rfl | hc
    · decide
    · exact isBlank_of_isDigitOrMinus (isDigitOrMinus_of_mem_intDigits hc)
  have hbare : IsBare (':' :: intDigits n) :=
    ⟨trim_eq_self (fun c hc => by cases hc; decide) hlast, List.cons_ne_nil _ _, by simp,
      stripQuotes_of_not_quote ':' _ (by decide)⟩
  exact hbare.classify_slice (cutAt_append List.not_mem_nil _) rfl (sliceBound_intDigits h)

theorem follow_slice_to (h : IsBound n) (xs : List Value) :
    (Value.array xs).follow ("$[:" ++ String.ofList (intDigits n) ++ "]") =
      .array (sliceItems xs 0 (some n)) := by
  have htext : "$[:" ++ String.ofList (intDigits n) ++ "]" =
      String.ofList ('$' :: '[' :: (':' :: intDigits n ++ [']'])) := by
    apply String.toList_injective
    simp
  have hbody : BracketBody (':' :: intDigits n) :=
    .char (by decide) (by decide) (.of_forall fun c => isPlain_of_mem_intDigits)
  simp only [htext, Value.follow, ofText_bracket hbody (classify_colon h)]
  rfl

theorem follow_slice_from (h : IsBound n) (xs : List Value) :
    (Value.array xs).follow ("$[" ++ String.ofList (intDigits n) ++ ":]") =
      .array (sliceItems xs n none) := by
  have htext : "$[" ++ String.ofList (intDigits n) ++ ":]" =
      String.ofList ('$' :: '[' :: ((Step.slice n none).inside ++ [']'])) := by
    apply String.toList_injective
    simp [Step.inside]
  have hstep : (Step.slice n none).IsBracketed := ⟨h, by simp⟩
  simp only [htext, Value.follow,
    ofText_bracket (hstep.bracketBody_inside trivial) hstep.classify_inside]
  rfl

end Path

/-! ## Counts -/

namespace Number

open Sluice.Decimal

theorem isBound_clampInt64 (n : Int) : Path.IsBound (clampInt minInt64 maxInt64 n) := by
  have hrange : -(Nat.pow 2 63 : Int) = minInt64 ∧ (Nat.pow 2 63 : Int) = maxInt64 + 1 := by decide
  have hle : minInt64 ≤ maxInt64 := by decide
  rw [Path.IsBound, hrange.1, hrange.2, clampInt]
  split
  · omega
  · split <;> omega

theorem isBound_toInt64 (x : Float) : Path.IsBound (toInt64 x) := by
  unfold toInt64
  split
  · exact isBound_clampInt64 _
  · split
    · exact (by decide : -(Nat.pow 2 63 : Int) ≤ maxInt64 ∧ maxInt64 < Nat.pow 2 63)
    · exact (by decide : -(Nat.pow 2 63 : Int) ≤ minInt64 ∧ minInt64 < Nat.pow 2 63)

theorem eq_of_signOf {a b : Bool} (h : signOf a = signOf b) : a = b := by
  cases a <;> cases b <;> simp_all [signOf]

/-- The parts of an integer that is a number, and not zero. -/
theorem parts_ofInt {size : Nat} (negative : Bool) (hpos : 0 < size) (hlt : size < 2 ^ 53) :
    ∃ narrowBelow, parts (Float.ofInt (if negative then -(size : Int) else size)) =
      .finite negative ⟨significand size, exponentOf size, narrowBelow⟩ := by
  have hagree := agree_parts (Float.ofInt (if negative then -(size : Int) else size))
  have hunpack := unpack_ofInt negative hpos hlt
  generalize parts (Float.ofInt _) = p, (Float.ofInt _).toModel.unpack = u at hagree hunpack ⊢
  cases hagree with
  | finite sign _ _ narrowBelow =>
      obtain ⟨hsign, rfl, rfl⟩ := Float.Model.UnpackedFloat.finite.inj hunpack
      obtain rfl := eq_of_signOf hsign
      exact ⟨narrowBelow, rfl⟩
  | _ => cases hunpack

/-- An integer that is a number is its own integer part. -/
theorem truncated?_ofInt (h : n.natAbs < 2 ^ 53) : truncated? (Float.ofInt n) = some n := by
  rcases Nat.eq_zero_or_pos n.natAbs with hzero | hpos
  · obtain rfl : n = 0 := Int.natAbs_eq_zero.1 hzero
    decide +kernel
  · have hn : (if decide (n < 0) then -(n.natAbs : Int) else n.natAbs) = n := by
      simp only [decide_eq_true_eq]
      split <;> omega
    obtain ⟨narrowBelow, hparts⟩ := parts_ofInt (decide (n < 0)) hpos h
    have hlog := log2_le_of_lt hpos h
    rw [hn] at hparts
    unfold truncated?
    rw [hparts]
    by_cases hfull : exponentOf n.natAbs ≥ 0
    · have hlog : n.natAbs.log2 = 52 := by
        rw [exponentOf] at hfull
        omega
      simp only [exponentOf, significand, hlog]
      simpa using hn
    · have hshift : (-exponentOf n.natAbs).toNat = 52 - n.natAbs.log2 := by
        rw [exponentOf]
        omega
      have hunit : (0 : Int) < ((2 ^ (52 - n.natAbs.log2) : Nat) : Int) :=
        Int.natCast_pos.2 (Nat.two_pow_pos _)
      simp only [if_neg hfull, hshift, significand, Nat.pow_eq, Int.natCast_mul,
        Int.mul_ediv_cancel _ (Int.ne_of_gt hunit), hn]

theorem toInt64_ofInt (h : n.natAbs < 2 ^ 53) : toInt64 (Float.ofInt n) = n := by
  have hlow : ¬ n < minInt64 := by
    rw [(by decide : minInt64 = -9223372036854775808)]
    omega
  have hhigh : ¬ maxInt64 < n := by
    rw [(by decide : maxInt64 = 9223372036854775807)]
    omega
  simp only [toInt64, truncated?_ofInt h, clampInt, if_neg hlow, if_neg hhigh]

end Number

namespace Arguments

theorem isBound_of_count? {args : Arguments} (h : args.count? = some n) : Path.IsBound n := by
  unfold count? at h
  split at h
  · split at h
    · cases h
    · cases h
      exact Number.isBound_toInt64 _
  · cases h

/-- An integer that is a number counts as itself. -/
theorem count?_ofInt (h : n.natAbs < 2 ^ 53) (more : List Value) :
    (values (.number (Float.ofInt n) :: more)).count? = some n := by
  have hcount (x : Number) : (values (.number x :: more)).count? =
      if x.isNaN then Option.none else some (Number.toInt64 x) := rfl
  have hnan : ¬ (Float.ofInt n).isNaN = true := by
    rw [Decimal.isNaN_iff]
    intro hparts
    have htruncated := Number.truncated?_ofInt h
    simp [Number.truncated?, hparts] at htruncated
  rw [hcount, Number.isNaN_ofFloat, Number.toFloat_ofFloat, if_neg hnan, Number.toInt64_ofInt h]

end Arguments

namespace StageFunction

/-- Taking, skipping, slicing and indexing agree, and none of them leaves the list. Whatever its
bounds are, a slice begins at or before its end and ends within the list. For every integer of 64
bits, the slices of paths with this one bound are the parts before and after it, and nothing is
lost between them. Arguments count such an integer, and every integer that is a number, of less
than 53 bits, is counted as itself. By this count, a part is taken or skipped, and the item at it
is the first one of what is left after skipping, but missing if the count goes back before the
start of the list. -/
theorem take_skip_slice_nth (nested : Nested) (xs : List Value) :
    (∀ start stop, (sliceBounds xs.length start stop).1 ≤ (sliceBounds xs.length start stop).2 ∧
      (sliceBounds xs.length start stop).2 ≤ xs.length) ∧
    (∀ n, Path.IsBound n → ∃ before after, before ++ after = xs ∧
      (Value.array xs).follow ("$[:" ++ String.ofList (Text.intDigits n) ++ "]") = .array before ∧
      (Value.array xs).follow ("$[" ++ String.ofList (Text.intDigits n) ++ ":]") = .array after ∧
      ∀ args : Arguments, args.count? = some n →
        take.apply nested (.array xs) args = pure (.array before) ∧
        skip.apply nested (.array xs) args = pure (.array after) ∧
        nth.apply nested (.array xs) args =
          if n < -(xs.length : Int) then pure .missing
          else skip.apply nested (.array xs) args >>= fun v => first.apply nested v .none) ∧
    (∀ (args : Arguments) n, args.count? = some n → Path.IsBound n) ∧
    ∀ n : Int, n.natAbs < 2 ^ 53 → (Arguments.values [.number (Float.ofInt n)]).count? = some n := by
  refine ⟨sliceBounds_within xs.length, fun n hn => ?_, fun _ _ => Arguments.isBound_of_count?,
    fun n hn => Arguments.count?_ofInt hn []⟩
  refine ⟨sliceItems xs 0 (some n), sliceItems xs n none, sliceItems_append xs n,
    Path.follow_slice_to hn xs, Path.follow_slice_from hn xs, fun args hcount => ?_⟩
  have htake : take.apply nested (.array xs) args = pure (.array (sliceItems xs 0 (some n))) := by
    simp only [apply, hcount]
  have hskip : skip.apply nested (.array xs) args = pure (.array (sliceItems xs n none)) := by
    simp only [apply, hcount]
  have hnth : nth.apply nested (.array xs) args = pure (Items.at? xs n) := by
    simp only [apply, hcount]
  refine ⟨htake, hskip, ?_⟩
  rw [hnth, hskip, Items.at?_eq]
  by_cases hlow : n < -(xs.length : Int)
  · rw [if_pos hlow, if_pos hlow]
  · rw [if_neg hlow, if_neg hlow]
    rfl

/-- The least bound, which an infinity with a minus counts as; the greatest, which the other
infinity counts as; and the two bounds at the start of a list of two items. -/
theorem take_skip_slice_nth_of_limits :
    let nested := (Scope.mk {} Template.resolve 1).nestedAt 1
    let xs := [Value.bool true, .null]
    let least := Arguments.values [.number (-1 / 0)]
    let greatest := Arguments.values [.number (1 / 0)]
    let back (n : Int) := Arguments.values [.number (Float.ofInt n)]
    (least.count? = some (-9223372036854775808) ∧
      greatest.count? = some 9223372036854775807 ∧
      (back (-2)).count? = some (-2) ∧ (back (-3)).count? = some (-3)) ∧
    nth.apply nested (.array xs) least = pure .missing ∧
    nth.apply nested (.array xs) (back (-3)) = pure .missing ∧
    nth.apply nested (.array xs) (back (-2)) = pure (.bool true) ∧
    nth.apply nested (.array xs) greatest = pure .missing ∧
    ∃ before after, before ++ after = xs ∧
      (Value.array xs).follow "$[:9223372036854775807]" = .array before ∧
      take.apply nested (.array xs) greatest = pure (.array before) ∧
      skip.apply nested (.array xs) greatest = pure (.array after) := by
  intro nested xs least greatest back
  obtain ⟨-, hparts, hbound, hcount⟩ := take_skip_slice_nth nested xs
  have hleast : least.count? = some (-9223372036854775808) := by decide +kernel
  have hgreatest : greatest.count? = some 9223372036854775807 := by decide +kernel
  have htwo : (back (-2)).count? = some (-2) := hcount (-2) (by decide)
  have hthree : (back (-3)).count? = some (-3) := hcount (-3) (by decide)
  have hnth {args : Arguments} {n : Int} (h : args.count? = some n) :
      nth.apply nested (.array xs) args =
        if n < -2 then pure .missing
        else skip.apply nested (.array xs) args >>= fun v => first.apply nested v .none := by
    obtain ⟨_, _, -, -, -, hargs⟩ := hparts n (hbound args n h)
    exact (hargs args h).2.2
  have hskip {args : Arguments} {n : Int} (h : args.count? = some n) :
      skip.apply nested (.array xs) args = pure (.array (sliceItems xs n none)) := by
    simp only [apply, h]
  refine ⟨⟨hleast, hgreatest, htwo, hthree⟩, hnth hleast, hnth hthree, ?_, ?_, ?_⟩
  · rw [hnth htwo, if_neg (by decide), hskip htwo]
    rfl
  · rw [hnth hgreatest, if_neg (by decide), hskip hgreatest]
    rfl
  · obtain ⟨before, after, happend, hto, -, hargs⟩ := hparts _ (hbound _ _ hgreatest)
    obtain ⟨htake, hskip, -⟩ := hargs greatest hgreatest
    exact ⟨before, after, happend, hto, htake, hskip⟩

end StageFunction

end Sluice
