import Sluice.Text.Basic
import Mathlib.Algebra.Order.Ring.Int
import Mathlib.Data.List.Induction

/-!
# Integers in decimal digits

What is written for an integer consists of digits after at most one minus, without a zero in
front, and is read back. Digits without a zero in front are what is written for their number.
-/
namespace Sluice.Text

theorem isAsciiDigit_of_mem_natDigits {n : Nat} {c : Char} (h : c ∈ natDigits n) :
    isAsciiDigit c = true := by
  have hdigit := Nat.isDigit_of_mem_toDigits (by decide) (by decide) h
  simpa [Char.isDigit, isAsciiDigit, Char.le_def] using hdigit

theorem natDigits_ne_nil (n : Nat) : natDigits n ≠ [] :=
  Nat.toDigits_ne_nil

theorem digitsValue_natDigits (n : Nat) : digitsValue (natDigits n) = n :=
  Nat.ofDigitChars_ten_toDigits

/-- Only zero is written with a zero in front. -/
theorem head?_natDigits {n : Nat} (hn : 0 < n) : (natDigits n).head? ≠ some '0' := by
  induction n using Nat.strong_induction_on with
  | h n ih =>
      rw [natDigits, Nat.toDigits_eq_if (by decide)]
      split
      · next hlt =>
          have hdigit : ∀ m < 10, 0 < m → m.digitChar ≠ '0' := by decide
          simpa using hdigit n hlt hn
      · next hge =>
          have hhead := ih (n / 10) (by omega) (by omega)
          obtain ⟨c, cs, hdigits⟩ := List.exists_cons_of_ne_nil (natDigits_ne_nil (n / 10))
          rw [natDigits] at hdigits hhead
          simpa [hdigits] using hhead

theorem all_natDigits (n : Nat) : (natDigits n).all isAsciiDigit = true :=
  List.all_eq_true.2 fun _ => isAsciiDigit_of_mem_natDigits

/-- A digit is what is written for its number. -/
theorem natDigits_of_isAsciiDigit {c : Char} (h : isAsciiDigit c = true) :
    c.toNat - '0'.toNat < 10 ∧ natDigits (c.toNat - '0'.toNat) = [c] := by
  have hbounds : '0' ≤ c ∧ c ≤ '9' := by simpa [isAsciiDigit] using h
  obtain ⟨n, hn, hc⟩ : ∃ n < 10, c.toNat = '0'.toNat + n := by
    have hlower : '0'.toNat ≤ c.toNat := hbounds.1
    have hupper : c.toNat ≤ '9'.toNat := hbounds.2
    have hwidth : '9'.toNat = '0'.toNat + 9 := by decide
    exact ⟨c.toNat - '0'.toNat, by omega, by omega⟩
  have hchar : ∀ n < 10, n.digitChar = Char.ofNat ('0'.toNat + n) := by decide
  rw [hc, Nat.add_sub_cancel_left]
  refine ⟨hn, ?_⟩
  rw [natDigits, Nat.toDigits_of_lt_base hn, hchar n hn, ← hc, Char.ofNat_toNat]

theorem digitsValue_concat (cs : List Char) (c : Char) :
    digitsValue (cs ++ [c]) = 10 * digitsValue cs + (c.toNat - '0'.toNat) := by
  simp [digitsValue]

/-- Digits without a zero in front are those of their number. -/
theorem natDigits_digitsValue {cs : List Char} (hne : cs ≠ [])
    (hdigits : ∀ c ∈ cs, isAsciiDigit c = true) (hhead : cs.head? ≠ some '0') :
    0 < digitsValue cs ∧ natDigits (digitsValue cs) = cs := by
  induction cs using List.reverseRecOn with
  | nil => exact absurd rfl hne
  | append_singleton cs c ih =>
      obtain ⟨hten, hdigit⟩ := natDigits_of_isAsciiDigit (hdigits c (by simp))
      rw [digitsValue_concat]
      by_cases hcs : cs = []
      · subst hcs
        have hpos : c.toNat - '0'.toNat ≠ 0 := by
          intro hzero
          rw [hzero] at hdigit
          exact hhead (congrArg List.head? hdigit.symm)
        have hnil : digitsValue [] = 0 := rfl
        rw [hnil, Nat.mul_zero, Nat.zero_add]
        exact ⟨Nat.pos_of_ne_zero hpos, hdigit⟩
      · have hfirst : cs.head? ≠ some '0' := by
          obtain ⟨d, ds, rfl⟩ := List.exists_cons_of_ne_nil hcs
          simpa using hhead
        obtain ⟨hpos, hvalue⟩ := ih hcs (fun c hc => hdigits c (by simp [hc])) hfirst
        refine ⟨by omega, ?_⟩
        rw [natDigits, ← Nat.toDigits_append_toDigits (by decide) hpos hten]
        exact congrArg₂ (· ++ ·) hvalue hdigit

theorem eq_of_mem_intDigits {n : Int} {c : Char} (h : c ∈ intDigits n) :
    c = '-' ∨ isAsciiDigit c = true := by
  unfold intDigits at h
  split at h
  · exact (List.mem_cons.1 h).imp_right isAsciiDigit_of_mem_natDigits
  · exact .inr (isAsciiDigit_of_mem_natDigits h)

theorem intDigits_ne_nil (n : Int) : intDigits n ≠ [] := by
  unfold intDigits
  split
  · exact List.cons_ne_nil _ _
  · exact natDigits_ne_nil _

theorem signed_natDigits (n : Nat) : signed (natDigits n) = (false, natDigits n) := by
  have hdigit (c : Char) (hc : isAsciiDigit c = false) (rest : List Char) :
      natDigits n ≠ c :: rest := by
    intro h
    rw [isAsciiDigit_of_mem_natDigits (h ▸ List.mem_cons_self)] at hc
    cases hc
  unfold signed
  split
  · next h => exact absurd h (hdigit '-' (by decide) _)
  · next h => exact absurd h (hdigit '+' (by decide) _)
  · rfl

/-- An integer is read back. -/
theorem readInt_intDigits (n : Int) : readInt (intDigits n) = some n := by
  have hempty (m : Nat) : (natDigits m).isEmpty = false := by
    simpa using natDigits_ne_nil m
  unfold intDigits
  split
  · next hneg =>
      simp only [readInt, signed, hempty, all_natDigits, digitsValue_natDigits]
      simp only [Bool.not_true, Bool.or_false, Bool.false_eq_true, if_false, if_true,
        Option.some.injEq]
      omega
  · next hneg =>
      simp only [readInt, signed_natDigits, hempty, all_natDigits, digitsValue_natDigits]
      simp only [Bool.not_true, Bool.or_false, Bool.false_eq_true, if_false, Option.some.injEq]
      omega

end Sluice.Text
