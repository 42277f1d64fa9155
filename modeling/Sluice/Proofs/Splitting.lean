import Sluice.Pipeline.Split
import Sluice.Text.Word

/-!
# Where a text is not cut

The scan for separators has two pieces of state, the number of brackets open and the quote
that is open. A piece of text is uncut if the scan carries it over to the part it is in, and
leaves in a known state, whatever stands after it. Such pieces compose.

Nothing here speaks of tokens: the pieces are quoted text, brackets, and plain characters.
-/
namespace Sluice.Pipeline

open Sluice.Text

variable {sep : Char} {d d' d'' : Int} {q q' q'' : Option Char} {as bs cs : List Char}

@[simp] theorem onFirst_nil_cons (part : List Char) (rest : List (List Char)) :
    onFirst [] (part :: rest) = part :: rest := rfl

theorem onFirst_append (as bs : List Char) (found : List (List Char)) :
    onFirst (as ++ bs) found = onFirst as (onFirst bs found) := by
  cases found <;> simp [onFirst]

theorem onFirst_ne_nil (as : List Char) (found : List (List Char)) : onFirst as found ≠ [] := by
  cases found <;> simp [onFirst]

theorem partsFrom_ne_nil (sep : Char) (d : Int) (q : Option Char) (cs : List Char) :
    partsFrom sep d q cs ≠ [] := by
  fun_cases partsFrom sep d q cs <;> simp_all [onFirst_ne_nil]

theorem intercalate_onFirst (as : List Char) {found : List (List Char)} (h : found ≠ []) :
    [sep].intercalate (onFirst as found) = as ++ [sep].intercalate found := by
  obtain ⟨part, rest, rfl⟩ := List.exists_cons_of_ne_nil h
  cases rest <;> simp [onFirst, List.intercalate_cons_cons]

theorem intercalate_nil_cons {found : List (List Char)} (h : found ≠ []) :
    [sep].intercalate ([] :: found) = sep :: [sep].intercalate found := by
  simp [List.intercalate_cons_of_ne_nil h]

/-- Nothing is lost: the parts joined by the separator are the text. -/
theorem intercalate_partsFrom (sep : Char) (d : Int) (q : Option Char) (cs : List Char) :
    [sep].intercalate (partsFrom sep d q cs) = cs := by
  fun_induction partsFrom sep d q cs with
  | case1 => rfl
  | case2 => simp_all
  | _ => simp_all [intercalate_onFirst, intercalate_nil_cons, partsFrom_ne_nil]

/-- A text without the separator is one part. -/
theorem parts_of_not_mem (h : sep ∉ cs) : parts sep cs = [cs] := by
  have hjoined := intercalate_partsFrom sep 0 none cs
  rw [parts]
  cases hparts : partsFrom sep 0 none cs with
  | nil => exact absurd hparts (partsFrom_ne_nil _ _ _ _)
  | cons part rest =>
      rw [hparts] at hjoined
      cases rest with
      | nil => simpa using hjoined
      | cons part' rest =>
          rw [List.intercalate_cons_cons] at hjoined
          exact absurd (hjoined ▸ by simp) h

/-- The scan puts these characters on one part, and goes on with other brackets and another
quote open. -/
def Uncut (sep : Char) (d : Int) (q : Option Char) (cs : List Char) (d' : Int)
    (q' : Option Char) : Prop :=
  ∀ rest, partsFrom sep d q (cs ++ rest) = onFirst cs (partsFrom sep d' q' rest)

theorem Uncut.nil : Uncut sep d q [] d q := by
  intro rest
  obtain ⟨part, found, h⟩ := List.exists_cons_of_ne_nil (partsFrom_ne_nil sep d q rest)
  simp [h]

theorem Uncut.append (has : Uncut sep d q as d' q') (hbs : Uncut sep d' q' bs d'' q'') :
    Uncut sep d q (as ++ bs) d'' q'' := by
  intro rest
  rw [List.append_assoc, has, hbs, onFirst_append]

theorem Uncut.cons {c : Char} (hc : Uncut sep d q [c] d' q') (hcs : Uncut sep d' q' cs d'' q'') :
    Uncut sep d q (c :: cs) d'' q'' :=
  hc.append hcs

theorem Uncut.partsFrom_eq (h : Uncut sep d q cs d' q') : partsFrom sep d q cs = [cs] := by
  simpa [partsFrom, onFirst] using h []

/-- A character that changes nothing in the state of the scan. -/
structure IsPlain (sep c : Char) : Prop where
  notQuote : isQuote c = false
  notOpening : isOpening c = false
  notClosing : isClosing c = false
  notSep : c ≠ sep
  notBar : c ≠ '|'

theorem uncut_of_isPlain {c : Char} (h : IsPlain sep c) : Uncut sep d none [c] d none := by
  intro rest
  cases rest <;>
    simp [partsFrom, onFirst, h.notQuote, h.notOpening, h.notClosing, h.notSep, h.notBar]

/-- Two bars are an operator, whatever the separator. -/
theorem uncut_bars : Uncut sep d none ['|', '|'] d none := by
  by_cases hsep : sep = '|'
  · intro rest
    simp [partsFrom, isQuote, isOpening, isClosing, hsep]
  · have hbar : Uncut sep d none ['|'] d none := by
      intro rest
      cases rest <;>
        simp [partsFrom, onFirst, isQuote, isOpening, isClosing, hsep, Ne.symm hsep]
    exact hbar.cons hbar

/-- A lone bar is a separator where no bracket is open. -/
theorem partsFrom_loneBar (hd : d ≤ 0) (h : cs.head? ≠ some '|') :
    partsFrom '|' d none ('|' :: cs) = [] :: partsFrom '|' d none cs := by
  cases cs with
  | nil => simp [partsFrom, isQuote, isOpening, isClosing, hd]
  | cons c cs =>
      have hc : c ≠ '|' := by simpa using h
      simp [partsFrom, isQuote, isOpening, isClosing, hd, hc]

theorem isQuote_of_isOpening {c : Char} (h : isOpening c = true) : isQuote c = false ∧ c ≠ ')' := by
  revert h
  simp only [isOpening, isQuote]
  grind

theorem isQuote_of_isClosing {c : Char} (h : isClosing c = true) :
    isQuote c = false ∧ isOpening c = false := by
  revert h
  simp only [isClosing, isQuote, isOpening]
  grind

/-- A bracket that opens, or one that closes, moves the depth by one. -/
theorem uncut_opening {c : Char} (h : isOpening c = true) :
    Uncut sep d none [c] (d + 1) none := by
  intro rest
  cases rest <;> simp [partsFrom, onFirst, h, isQuote_of_isOpening h]

theorem uncut_closing {c : Char} (h : isClosing c = true) :
    Uncut sep d none [c] (d - 1) none := by
  intro rest
  cases rest <;> simp [partsFrom, onFirst, h, isQuote_of_isClosing h]

theorem uncut_openQuote {c : Char} (h : isQuote c = true) :
    Uncut sep d none [c] d (some c) := by
  intro rest
  cases rest <;> simp [partsFrom, onFirst, h]

theorem uncut_inQuote {c q : Char} (hslash : c ≠ '\\') (hquote : c ≠ q) :
    Uncut sep d (some q) [c] d (some q) := by
  intro rest
  cases rest <;> simp [partsFrom, onFirst, hslash, hquote]

theorem uncut_closeQuote {q : Char} (h : isQuote q = true) :
    Uncut sep d (some q) [q] d none := by
  have hslash : q ≠ '\\' := ne_of_class isQuote h (by decide)
  intro rest
  cases rest <;> simp [partsFrom, onFirst, hslash]

theorem uncut_escaped {q c : Char} : Uncut sep d (some q) ['\\', c] d (some q) := by
  intro rest
  simp [partsFrom]

/-- Inside brackets a bar is no separator, whether it pairs with one after it or not. -/
theorem uncut_barInside (hd : 0 < d) : Uncut '|' d none ['|'] d none := by
  have hdepth : ¬ d ≤ 0 := by omega
  intro rest
  induction rest with
  | nil => simp [partsFrom, onFirst, hdepth]
  | cons e rest ih =>
      by_cases he : e = '|'
      · subst he
        have hpair : partsFrom '|' d none (['|', '|'] ++ rest) =
            onFirst ['|', '|'] (partsFrom '|' d none rest) := uncut_bars rest
        rw [List.singleton_append] at ih ⊢
        rw [ih, ← onFirst_append]
        exact hpair
      · simp [partsFrom, isQuote, isOpening, isClosing, hdepth, he]

/-- Inside brackets no character but quotes and brackets counts. -/
theorem uncut_inside {c : Char} (hd : 0 < d) (hquote : isQuote c = false)
    (hopening : isOpening c = false) (hclosing : isClosing c = false) :
    Uncut sep d none [c] d none := by
  have hdepth : ¬ d ≤ 0 := by omega
  by_cases hbar : sep = '|' ∧ c = '|'
  · obtain ⟨rfl, rfl⟩ := hbar
    exact uncut_barInside hd
  · intro rest
    have hbars (e : Char) : ¬ (sep = '|' ∧ c = '|' ∧ e = '|') := fun h => hbar ⟨h.1, h.2.1⟩
    cases rest <;> simp [partsFrom, onFirst, hquote, hopening, hclosing, hdepth, hbars]

end Sluice.Pipeline
