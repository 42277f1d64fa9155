import Sluice.Function.Items
import Sluice.Operation
import Sluice.Proofs.KeyOrder
import Sluice.Proofs.NumericTexts
import Sluice.Value.Cast

/-!
# Texts as operands

The relations, the arithmetic, the casts to numbers, the sums and the sorting read a text by one
grammar. A numeric text stands for a number that is not not-a-number; any other text stands for
none, which each operation has its own answer for.
-/
namespace Sluice

namespace Number

variable {x : Float}

/-- What is a number is at most itself. -/
theorem le_self (h : x.isNaN = false) : x ≤ x := by
  have hbeq : x.toModel.unpack.beq x.toModel.unpack = true :=
    Float.beq_self_iff.2 fun hx => by simp [hx, Float.isNaN_eq_decide_eq_nan] at h
  have hcompare : x.toModel.unpack.compare x.toModel.unpack = some .eq := by
    simpa [Float.Model.UnpackedFloat.beq] using hbeq
  have hle : x.toModel.unpack.le x.toModel.unpack = true := by
    rw [Float.Model.UnpackedFloat.le, hcompare]
    rfl
  exact decide_eq_true (p := x.toModel ≤ x.toModel) hle

/-- A number is between the two that are not one. -/
theorem compareTotal_nan {x : Number} (h : x.isNaN = false) :
    compareTotal x nan = .lt ∧ compareTotal (-nan) x = .lt := by
  have hafter : compareTotal nan x = .gt := compareTotal_of_isNaN (by decide) h
  have hswap : compareTotal x nan = (compareTotal nan x).swap := Std.OrientedCmp.eq_swap
  refine ⟨?_, compareTotal_of_isNaN (by decide) h⟩
  rw [hswap, hafter, Ordering.swap_gt]

end Number

namespace Operator

/-- The operator reads its operands as numbers. -/
def readsNumbers : Operator → Bool
  | gt | ge | lt | le | add | sub | mul | div | mod => true
  | _ => false

/-- The result for operands that are no numbers. -/
def withoutNumbers : Operator → Value
  | gt | ge | lt | le => .bool false
  | _ => .nan

variable {op : Operator} {a b a' b' : Value}

/-- Of its operands, the operator knows what they are read as. -/
theorem apply_congr (h : op.readsNumbers) (budget : Nat) (ha : a.toNumber? = a'.toNumber?)
    (hb : b.toNumber? = b'.toNumber?) : op.apply budget a b = op.apply budget a' b' := by
  cases op <;> first | (cases h; done) | simp only [apply, relate, lenient, ha, hb]

theorem apply_of_left (h : op.readsNumbers) (budget : Nat) (ha : a.toNumber? = none) (b : Value) :
    op.apply budget a b = op.withoutNumbers := by
  cases op <;> first | (cases h; done) | simp only [apply, relate, lenient, ha, withoutNumbers]

theorem apply_of_right (h : op.readsNumbers) (budget : Nat) (a : Value) (hb : b.toNumber? = none) :
    op.apply budget a b = op.withoutNumbers := by
  cases op <;> first
    | (cases h; done)
    | (simp only [apply, relate, lenient, hb, withoutNumbers]; cases a.toNumber? <;> rfl)

end Operator

namespace Value

/-- What reads numbers takes the text for this one. -/
structure TakenFor (s : String) (x : Number) : Prop where
  operator : ∀ op : Operator, op.readsNumbers → ∀ budget v,
    op.apply budget (.string s) v = op.apply budget (.number x) v ∧
    op.apply budget v (.string s) = op.apply budget v (.number x)
  negation : UnaryOperator.negate.apply (.string s) = .number (-x)
  toInt : ∀ fallback, toInt (.string s) fallback =
    if x.isFinite then .number (Number.trunc x) else fallback.orNull
  toFloat : ∀ fallback, toFloat (.string s) fallback =
    if x.isFinite then .number x else fallback.orNull
  summand : Items.summand (.string s) = x
  sorting : ∀ v y, v.toNumber? = some y →
    compareKeys (.string s) v = Number.compareTotal x y ∧
    compareKeys v (.string s) = Number.compareTotal y x

/-- What reads numbers takes the text for none. -/
structure TakenForNone (s : String) : Prop where
  operator : ∀ op : Operator, op.readsNumbers → ∀ budget v,
    op.apply budget (.string s) v = op.withoutNumbers ∧
    op.apply budget v (.string s) = op.withoutNumbers
  negation : UnaryOperator.negate.apply (.string s) = .nan
  toInt : ∀ fallback, toInt (.string s) fallback = fallback.orNull
  toFloat : ∀ fallback, toFloat (.string s) fallback = fallback.orNull
  summand : Items.summand (.string s) = 0
  sorting : ∀ v, v.sortClass = 2 →
    compareKeys (.string s) v = compareTexts (.string s) v ∧
    compareKeys v (.string s) = compareTexts v (.string s)

variable {s : String} {x : Number}

theorem takenFor_of_read? (h : Number.read? s = some x) : TakenFor s x := by
  have hs : (Value.string s).toNumber? = some x := h
  refine ⟨fun op hop budget v => ⟨?_, ?_⟩, ?_, fun fallback => ?_, fun fallback => ?_, ?_, ?_⟩
  · exact Operator.apply_congr hop budget hs rfl
  · exact Operator.apply_congr hop budget rfl hs
  · rw [UnaryOperator.apply, hs]
  · rw [Value.toInt, hs]
  · rw [Value.toFloat, h]
  · rw [Items.summand, hs]
    exact if_neg (by rw [Number.isNaN_of_read? h]; exact Bool.false_ne_true)
  · intro v y hv
    rw [compareKeys_of_defined rfl (sortClass_of_number hv),
      compareKeys_of_defined (sortClass_of_number hv) rfl, compareDefined_of_numbers hs hv,
      compareDefined_of_numbers hv hs]
    exact ⟨rfl, rfl⟩

theorem takenForNone_of_read? (h : Number.read? s = none) : TakenForNone s := by
  have hs : (Value.string s).toNumber? = none := h
  refine ⟨fun op hop budget v => ⟨?_, ?_⟩, ?_, fun fallback => ?_, fun fallback => ?_, ?_, ?_⟩
  · exact Operator.apply_of_left hop budget hs v
  · exact Operator.apply_of_right hop budget v hs
  · rw [UnaryOperator.apply, hs]
  · rw [Value.toInt, hs]
  · rw [Value.toFloat, h]
  · rw [Items.summand, hs]
  · intro v hv
    rw [compareKeys_of_defined rfl hv, compareKeys_of_defined hv rfl, compareDefined_of_left hs,
      compareDefined_of_right v hs]
    exact ⟨rfl, rfl⟩

/-- Numeric text is told by one grammar, everywhere. A text is read as a number exactly if it is in
the grammar without the blanks around it, which is what a lenient reader makes of it when letters
other than `e` are turned away before. What is read is never not-a-number. The operators, the
casts, the sums and the sorting take a numeric text for the number that is read from it, which is
at most itself and in the order before not-a-number and after the one with a minus sign, and any
other text for no number. -/
theorem numeric_text_is_number (s : String) :
    ((Number.read? s).isSome ↔ Text.IsNumeric (Text.trim s.toList)) ∧
    Number.read? s = Number.readGuarded? s ∧
    (∀ x, Number.read? s = some x → x.isNaN = false ∧ TakenFor s x ∧
      (∀ budget, Operator.le.apply budget (.string s) (.string s) = .bool true) ∧
      compareKeys (.string s) .nan = .lt ∧
      compareKeys (.number (-Number.nan)) (.string s) = .lt) ∧
    (Number.read? s = none → TakenForNone s) := by
  refine ⟨Number.isSome_read? s, Number.read?_eq_readGuarded? s, fun x h => ?_,
    takenForNone_of_read?⟩
  have hs : (Value.string s).toNumber? = (Value.number x).toNumber? := h
  have hnan := Number.isNaN_of_read? h
  have htaken := takenFor_of_read? h
  obtain ⟨hbefore, hafter⟩ := Number.compareTotal_nan hnan
  refine ⟨hnan, htaken, fun budget => ?_, ?_, ?_⟩
  · have hle : x.toFloat ≤ x.toFloat := Number.le_self hnan
    have hnumber : Operator.le.apply budget (.string s) (.string s) =
        Operator.le.apply budget (.number x) (.number x) :=
      Operator.apply_congr rfl budget hs hs
    exact hnumber.trans (congrArg Value.bool (decide_eq_true hle))
  · exact (htaken.sorting .nan _ rfl).1.trans hbefore
  · exact (htaken.sorting (.number (-Number.nan)) _ rfl).2.trans hafter

/-- A numeral without digits before its point, between blanks, and a word that a lenient reader
would know. -/
theorem numeric_text_is_number_of_blanks :
    let s := "\u00a0-.5E+2\n"
    (∃ x, Number.read? s = some x ∧ x.isNaN = false ∧ TakenFor s x) ∧
    compareKeys (.string s) .nan = .lt ∧
    Number.read? "-nan" = none ∧ TakenForNone "-nan" := by
  intro s
  obtain ⟨hgrammar, -, hnumber, -⟩ := numeric_text_is_number s
  obtain ⟨-, -, -, hword⟩ := numeric_text_is_number "-nan"
  have htrim : Text.trim s.toList = ['-'] ++ (['.', '5'] ++ 'E' :: (['+'] ++ ['2'])) := by decide
  have hfive : Text.isAsciiDigit '5' := by decide
  have htwo : Text.isAsciiDigit '2' := by decide
  have hnumeric : Text.IsNumeric (Text.trim s.toList) := by
    rw [htrim]
    exact .decimal (.inr (.inr rfl)) ⟨by simp [hfive], by decide, '5', by simp, hfive⟩
      (.some (.inr rfl) (.inr (.inl rfl)) ⟨by simp, by simp [htwo]⟩)
  obtain ⟨x, hx⟩ := Option.isSome_iff_exists.1 (hgrammar.2 hnumeric)
  obtain ⟨hnan, htaken, -, hlast, -⟩ := hnumber x hx
  have hnone : Number.read? "-nan" = none := rfl
  exact ⟨⟨x, hx, hnan, htaken⟩, hlast, hnone, hword hnone⟩

end Value

end Sluice
