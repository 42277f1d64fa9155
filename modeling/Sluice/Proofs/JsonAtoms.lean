import Sluice.Json.Reader
import Sluice.Proofs.Digits
import Mathlib.Algebra.Order.Ring.Int
import Mathlib.Data.List.TakeWhile

/-!
# Strings and numbers of JSON, written and read

What is written for a string or an integer is read back, whatever stands after it. A number that
is read back from its text alone is read back where its text stands in a document, because what
can stand after a number there cannot go on with it.
-/
namespace Sluice.Json

open Sluice.Text Sluice.Decimal

/-! ## Strings -/

theorem hexUnit_hexDigit : ∀ n < 32,
    hexUnit '0' '0' (hexDigit (n / 16)) (hexDigit (n % 16)) = some n := by
  decide

theorem readChars_escape (c : Char) (cs : List Char) :
    readChars (escape c ++ cs) = (readChars cs).map fun r => (c :: r.1, r.2) := by
  have hback (n : Nat) (h : c.toNat = n) : Char.ofNat n = c := by rw [← h, Char.ofNat_toNat]
  unfold escape
  split
  · simp [readChars, simpleEscape, Option.map_eq_bind]
  · simp [readChars, simpleEscape, Option.map_eq_bind]
  · simp [readChars, simpleEscape, Option.map_eq_bind]
  · simp [readChars, simpleEscape, Option.map_eq_bind]
  · simp [readChars, simpleEscape, Option.map_eq_bind]
  · next hquote hslash _ _ _ =>
      split
      · next h =>
          obtain rfl := hback 8 h
          simp [readChars, simpleEscape, Option.map_eq_bind]
      · split
        · next h =>
            obtain rfl := hback 12 h
            simp [readChars, simpleEscape, Option.map_eq_bind]
        · split
          · next h =>
              have hunit := hexUnit_hexDigit c.toNat h
              have hhigh : ¬ (0xdc00 ≤ c.toNat ∧ c.toNat < 0xe000) := by omega
              have hlow : ¬ (0xd800 ≤ c.toNat ∧ c.toNat < 0xdc00) := by omega
              simp [readChars, hunit, hhigh, hlow, Option.map_eq_bind]
          · next h =>
              have hplain := readChars.eq_5 c cs hquote (fun _ _ _ _ _ h _ => hslash h)
                fun _ _ h _ => hslash h
              rw [if_neg (not_or.2 ⟨hslash, h⟩)] at hplain
              simp [hplain, Option.map_eq_bind]

/-- The characters of a string are read back up to its closing quote. -/
theorem readChars_flatMap_escape (cs rest : List Char) :
    readChars (cs.flatMap escape ++ '"' :: rest) = some (cs, rest) := by
  induction cs with
  | nil => simp [readChars]
  | cons c cs ih => rw [List.flatMap_cons, List.append_assoc, readChars_escape, ih, Option.map_some]

/-! ## Numbers -/

/-- A text that does not go on with a number in front of it. -/
def EndsNumber (cs : List Char) : Prop :=
  ∀ c ∈ cs.head?, isAsciiDigit c = false ∧ c ≠ '.' ∧ c ≠ 'e' ∧ c ≠ 'E'

variable {cs rest tail : List Char}

theorem takeWhile_append_tail {p : Char → Bool} (h : ∀ c ∈ tail.head?, p c = false) :
    (cs ++ tail).takeWhile p = cs.takeWhile p ∧
      (cs ++ tail).dropWhile p = cs.dropWhile p ++ tail := by
  induction cs with
  | nil => cases tail <;> simp_all
  | cons c cs ih => cases hc : p c <;> simp [hc, ih]

theorem EndsNumber.digits (h : EndsNumber tail) :
    (cs ++ tail).takeWhile isAsciiDigit = cs.takeWhile isAsciiDigit ∧
      (cs ++ tail).dropWhile isAsciiDigit = cs.dropWhile isAsciiDigit ++ tail :=
  takeWhile_append_tail fun c hc => (h c hc).1

theorem readWhole_append (htail : EndsNumber tail) {digits : List Char}
    (h : readWhole cs = some (digits, rest)) :
    readWhole (cs ++ tail) = some (digits, rest ++ tail) := by
  unfold readWhole at h ⊢
  split at h
  · cases h
    rfl
  · next hzero =>
      simp only at h
      split at h
      · cases h
      · next hdigits =>
          cases h
          obtain ⟨c, cs, rfl⟩ : ∃ c cs', cs = c :: cs' := by
            cases cs with
            | nil => simp at hdigits
            | cons c cs => exact ⟨c, cs, rfl⟩
          split
          · next rest' he =>
              cases he
              exact absurd rfl (hzero cs)
          · simp only [htail.digits.1, htail.digits.2, hdigits]
            rfl

theorem readFraction_append (htail : EndsNumber tail) {digits : List Char}
    (h : readFraction cs = some (digits, rest)) :
    readFraction (cs ++ tail) = some (digits, rest ++ tail) := by
  unfold readFraction at h ⊢
  split at h
  · next cs =>
      simp only at h
      split at h
      · cases h
      · next hdigits =>
          cases h
          simp only [List.cons_append, htail.digits.1, htail.digits.2, hdigits]
          rfl
  · next hpoint =>
      cases h
      split
      · next rest' he =>
          cases cs with
          | nil => exact absurd rfl (htail '.' (by simp_all)).2.1
          | cons c cs =>
              cases he
              exact absurd rfl (hpoint cs)
      · rfl

theorem readPower_append (htail : EndsNumber tail) {power : Option Int}
    (h : readPower cs = some (power, rest)) :
    readPower (cs ++ tail) = some (power, rest ++ tail) := by
  cases cs with
  | nil =>
      cases h
      cases tail with
      | nil => rfl
      | cons c tail =>
          have hc := htail c rfl
          simp [readPower, hc]
  | cons c cs =>
      simp only [readPower, List.cons_append] at h ⊢
      split at h
      · next hc =>
          have hsigned : signed (cs ++ tail) = ((signed cs).1, (signed cs).2 ++ tail) := by
            cases cs with
            | nil => simp [signed] at h
            | cons d cs =>
                by_cases hminus : d = '-'
                · rw [hminus]
                  rfl
                · by_cases hplus : d = '+'
                  · rw [hplus]
                    rfl
                  · simp [signed, hminus, hplus]
          rw [if_pos hc]
          split at h
          · cases h
          · next hdigits =>
              cases h
              simp only [hsigned, htail.digits.1, htail.digits.2, hdigits]
              rfl
      · next hc =>
          cases h
          rw [if_neg hc]
          rfl

/-- Reads a number after its sign. -/
def readUnsigned (negative : Bool) (cs : List Char) : Option (Json × List Char) := do
  let (whole, rest) ← readWhole cs
  let (fraction, rest) ← readFraction rest
  let (power, rest) ← readPower rest
  let j ← numberOf negative whole fraction power
  return (j, rest)

theorem readNumber_minus (cs : List Char) : readNumber ('-' :: cs) = readUnsigned true cs := rfl

theorem readNumber_of_head (h : cs.head? ≠ some '-') : readNumber cs = readUnsigned false cs := by
  unfold readNumber
  split
  · next negative body he =>
      split at he
      · simp at h
      · cases he
        rfl

theorem readUnsigned_append (htail : EndsNumber tail) {negative : Bool} {j : Json}
    (h : readUnsigned negative cs = some (j, rest)) :
    readUnsigned negative (cs ++ tail) = some (j, rest ++ tail) := by
  simp only [readUnsigned, Option.bind_eq_bind, Option.bind_eq_some_iff] at h
  obtain ⟨⟨whole, rest₁⟩, hwhole, ⟨fraction, rest₂⟩, hfraction, ⟨power, rest₃⟩, hpower, j', hj,
    he⟩ := h
  cases he
  simp [readUnsigned, readWhole_append htail hwhole, readFraction_append htail hfraction,
    readPower_append htail hpower, hj]

theorem exists_of_readUnsigned {negative : Bool} {j : Json}
    (h : readUnsigned negative cs = some (j, rest)) :
    ∃ c cs', cs = c :: cs' ∧ isAsciiDigit c = true := by
  simp only [readUnsigned, Option.bind_eq_bind, Option.bind_eq_some_iff] at h
  obtain ⟨whole, hwhole, -⟩ := h
  unfold readWhole at hwhole
  split at hwhole
  · next cs' => exact ⟨'0', cs', rfl, by decide⟩
  · simp only at hwhole
    split at hwhole
    · cases hwhole
    · next hdigits =>
        cases cs with
        | nil => simp at hdigits
        | cons c cs' =>
            refine ⟨c, cs', rfl, ?_⟩
            by_contra hc
            simp [hc] at hdigits

/-- A number begins with a minus or a digit. -/
theorem exists_of_readNumber {j : Json} (h : readNumber cs = some (j, rest)) :
    ∃ c cs', cs = c :: cs' ∧ (c = '-' ∨ isAsciiDigit c = true) := by
  by_cases hminus : cs.head? = some '-'
  · obtain ⟨cs', rfl⟩ := List.head?_eq_some_iff.1 hminus
    exact ⟨'-', cs', rfl, .inl rfl⟩
  · rw [readNumber_of_head hminus] at h
    obtain ⟨c, cs', he, hc⟩ := exists_of_readUnsigned h
    exact ⟨c, cs', he, .inr hc⟩

/-- A number is read from a text that goes on with something else. -/
theorem readNumber_append (htail : EndsNumber tail) {j : Json}
    (h : readNumber cs = some (j, rest)) : readNumber (cs ++ tail) = some (j, rest ++ tail) := by
  obtain ⟨c, cs, rfl, -⟩ := exists_of_readNumber h
  by_cases hminus : c = '-'
  · subst hminus
    exact readUnsigned_append htail h
  · rw [readNumber_of_head (by simpa using hminus)] at h
    rw [readNumber_of_head (by simpa using hminus)]
    exact readUnsigned_append htail h

/-- The integers that are read as integers. -/
def IsWord (n : Int) : Prop :=
  -(2 ^ 63) ≤ n ∧ n < 2 ^ 64

theorem readUnsigned_natDigits {negative : Bool} {n : Nat} {j : Json}
    (h : numberOf negative (natDigits n) [] none = some j) :
    readUnsigned negative (natDigits n) = some (j, []) := by
  have hall : ∀ c ∈ natDigits n, isAsciiDigit c = true := fun c => isAsciiDigit_of_mem_natDigits
  have htake : (natDigits n).takeWhile isAsciiDigit = natDigits n :=
    List.takeWhile_eq_self_iff.2 hall
  have hdrop : (natDigits n).dropWhile isAsciiDigit = [] := List.dropWhile_eq_nil_iff.2 hall
  have hwhole : readWhole (natDigits n) = some (natDigits n, []) := by
    unfold readWhole
    split
    · next rest he =>
        cases n with
        | zero =>
            rw [natDigits, Nat.toDigits_zero] at he ⊢
            cases he
            rfl
        | succ n => exact absurd (by rw [he]; rfl) (head?_natDigits (Nat.succ_pos n))
    · simp [htake, hdrop, natDigits_ne_nil]
  simp [readUnsigned, hwhole, readFraction, readPower, h]

/-- An integer that fits is read back. -/
theorem readNumber_intDigits {n : Int} (hn : IsWord n) :
    readNumber (intDigits n) = some (.int n, []) := by
  obtain ⟨hlo, hhi⟩ := hn
  obtain ⟨m, hm⟩ : ∃ m, n.natAbs = m := ⟨_, rfl⟩
  unfold intDigits
  rw [hm]
  split
  · next hneg =>
      obtain rfl : n = -(m : Int) := by omega
      have hfits : ¬ m = 0 ∧ m ≤ 9223372036854775808 := by omega
      rw [readNumber_minus]
      exact readUnsigned_natDigits (by simp [numberOf, digitsValue_natDigits, hfits])
  · next hpos =>
      obtain rfl : n = (m : Int) := by omega
      have hfits : m < 18446744073709551616 := by omega
      have hhead : (natDigits m).head? ≠ some '-' := by
        intro h
        exact absurd (isAsciiDigit_of_mem_natDigits (List.mem_of_mem_head? h)) (by decide)
      rw [readNumber_of_head hhead]
      exact readUnsigned_natDigits (by simp [numberOf, digitsValue_natDigits, hfits])

/-! ## Floating-point numbers -/

/-- The number is read back from the document that is just its text. -/
def FloatReadsBack (x : Float) : Prop :=
  read? (Json.float x).render = some (.float x)

/-- A character of a written number. -/
def isNumeralChar (c : Char) : Bool :=
  isAsciiDigit c || c == '.' || c == 'e' || c == '-' || c == '+'

theorem isNumeralChar_of_mem_natDigits {n : Nat} {c : Char} (h : c ∈ natDigits n) :
    isNumeralChar c = true := by
  simp [isNumeralChar, isAsciiDigit_of_mem_natDigits h]

theorem isNumeralChar_of_mem_plain {d : Dec} {pointZero : Bool} {c : Char}
    (h : c ∈ d.plain pointZero) : isNumeralChar c = true := by
  have hzero : isNumeralChar '0' = true := by decide
  have hpoint : isNumeralChar '.' = true := by decide
  unfold Dec.plain at h
  simp only at h
  split at h
  · rcases List.mem_append.1 h with h | h
    · rcases List.mem_append.1 h with h | h
      · exact isNumeralChar_of_mem_natDigits h
      · rw [List.eq_of_mem_replicate h]
        exact hzero
    · split at h
      · simp only [List.mem_cons, List.not_mem_nil, or_false] at h
        rcases h with rfl | rfl
        · exact hpoint
        · exact hzero
      · simp at h
  · split at h
    · rcases List.mem_append.1 h with h | h
      · exact isNumeralChar_of_mem_natDigits (List.mem_of_mem_take h)
      · rcases List.mem_cons.1 h with rfl | h
        · exact hpoint
        · exact isNumeralChar_of_mem_natDigits (List.mem_of_mem_drop h)
    · simp only [List.mem_cons, List.mem_append] at h
      rcases h with rfl | rfl | h | h
      · exact hzero
      · exact hpoint
      · rw [List.eq_of_mem_replicate h]
        exact hzero
      · exact isNumeralChar_of_mem_natDigits h

theorem isNumeralChar_of_mem_scientific {d : Dec} {plusSign : Bool} {c : Char}
    (h : c ∈ d.scientific plusSign) : isNumeralChar c = true := by
  have hdigits {n : Nat} {c : Char} (h : c ∈ natDigits n) := isNumeralChar_of_mem_natDigits h
  unfold Dec.scientific at h
  simp only [List.mem_append, List.mem_cons] at h
  rcases h with h | rfl | h | h
  · split at h
    · simp at h
    · next he => exact hdigits (he ▸ h)
    · next c' rest he =>
        rcases List.mem_cons.1 h with rfl | h
        · exact hdigits (he ▸ List.mem_cons_self)
        · rcases List.mem_cons.1 h with rfl | h
          · decide
          · exact hdigits (he ▸ List.mem_cons_of_mem _ h)
  · decide
  · split at h
    · rw [List.mem_singleton.1 h]
      decide
    · split at h
      · rw [List.mem_singleton.1 h]
        decide
      · simp at h
  · exact hdigits h

theorem isNumeralChar_of_mem_finite {l : Layout} {negative : Bool} {size : Magnitude} {c : Char}
    (h : c ∈ l.finite negative size) : isNumeralChar c = true := by
  have hbody {d : Dec} {c : Char} (h : c ∈ l.unsigned d) : isNumeralChar c = true := by
    unfold Layout.unsigned at h
    split at h
    · exact isNumeralChar_of_mem_plain h
    · split at h
      · exact isNumeralChar_of_mem_plain h
      · exact isNumeralChar_of_mem_scientific h
  unfold Layout.finite at h
  simp only at h
  split at h
  · rcases List.mem_cons.1 h with rfl | h
    · decide
    · exact hbody h
  · exact hbody h

theorem suffix_of_readWhole {digits : List Char} (h : readWhole cs = some (digits, rest)) :
    rest <:+ cs.tail := by
  unfold readWhole at h
  split at h
  · cases h
    exact List.suffix_refl _
  · simp only at h
    split at h
    · cases h
    · next hdigits =>
        cases h
        cases cs with
        | nil => simp at hdigits
        | cons c cs =>
            by_cases hc : isAsciiDigit c = true
            · simpa [hc] using List.dropWhile_suffix isAsciiDigit
            · simp [hc] at hdigits

theorem suffix_of_readFraction {digits : List Char} (h : readFraction cs = some (digits, rest)) :
    rest <:+ cs := by
  unfold readFraction at h
  split at h
  · simp only at h
    split at h
    · cases h
    · cases h
      exact (List.dropWhile_suffix _).trans (List.suffix_cons _ _)
  · cases h
    exact List.suffix_refl _

theorem signed_suffix (cs : List Char) : (signed cs).2 <:+ cs := by
  unfold signed
  split
  · exact List.suffix_cons _ _
  · exact List.suffix_cons _ _
  · exact List.suffix_refl _

theorem suffix_of_readPower {power : Option Int} (h : readPower cs = some (power, rest)) :
    rest <:+ cs := by
  unfold readPower at h
  split at h
  · simp only at h
    split at h
    · split at h
      · cases h
      · cases h
        exact ((List.dropWhile_suffix _).trans (signed_suffix _)).trans (List.suffix_cons _ _)
    · cases h
      exact List.suffix_refl _
  · cases h
    exact List.suffix_refl _

/-- A number takes up a character at least. -/
theorem suffix_of_readNumber {j : Json} (h : readNumber cs = some (j, rest)) :
    rest <:+ cs.tail := by
  have hunsigned {negative : Bool} {cs : List Char}
      (h : readUnsigned negative cs = some (j, rest)) : rest <:+ cs.tail := by
    simp only [readUnsigned, Option.bind_eq_bind, Option.bind_eq_some_iff] at h
    obtain ⟨⟨whole, rest₁⟩, h₁, ⟨fraction, rest₂⟩, h₂, ⟨power, rest₃⟩, h₃, j', hj, he⟩ := h
    cases he
    have hpoint := (suffix_of_readPower h₃).trans (suffix_of_readFraction h₂)
    exact hpoint.trans (suffix_of_readWhole h₁)
  by_cases hminus : cs.head? = some '-'
  · obtain ⟨cs', rfl⟩ := List.head?_eq_some_iff.1 hminus
    exact (hunsigned h).trans (List.tail_suffix cs')
  · rw [readNumber_of_head hminus] at h
    exact hunsigned h

end Sluice.Json
